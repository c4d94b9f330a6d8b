import Mathlib.Data.List.AList
import Neconet.Base.Fault
import Neconet.Lib.SwapRemove
import Neconet.Net.Channel

/-!
# `CPoller`

The poller of `net/CPoller.cpp`: a vector of `pollfd` entries, a map from descriptors to channels,
and the index of its entry in every channel. The model holds the channels beside the poller, as
the objects its pointers refer to; `int` is taken as unbounded, since descriptors are below
`2 ^ 31` and no two registered channels share one.

* `CPoller.updateChannel`, `CPoller.removeChannel`: the two changes, with their assertions.
* `CPoller.IndexInv`: vector, map and indices are in step.
* `updateChannel_fresh`, `updateChannel_registered`, `removeChannel_removes`: what the two functions
  do on a poller that is in step, with `IndexInv.insertChannel`, `IndexInv.setEntry` and
  `Removes.indexInv` for the invariant.
-/

set_option linter.unusedSectionVars false

namespace Neconet

open SwapRemove

/-! ## The poller -/

/-- An entry of `m_vPollFds`. -/
@[ext] structure PollFd where
  /-- The descriptor, or `-fd - 1` to mute the entry. -/
  fd : ℤ
  /-- The requested events, a `short`. -/
  events : BitVec 16
  /-- The returned events, a `short`. -/
  revents : BitVec 16
  deriving DecidableEq, Repr

/-- The entry is one of the descriptor `nFd`, muted or not. -/
def PollFd.Carries (pFd : PollFd) (nFd : ℤ) : Prop := pFd.fd = nFd ∨ pFd.fd = -nFd - 1

/-- An entry carries at most one non-negative descriptor. -/
theorem PollFd.Carries.unique {pFd : PollFd} {nFd nFd' : ℤ} (h : pFd.Carries nFd)
    (h' : pFd.Carries nFd') (h0 : 0 ≤ nFd) (h0' : 0 ≤ nFd') : nFd = nFd' := by
  rcases h with h | h <;> rcases h' with h' | h' <;> omega

/-- An entry that is not muted has the descriptor of its channel. -/
theorem PollFd.Carries.fd_eq {pFd : PollFd} {nFd : ℤ} (h : pFd.Carries nFd) (h0 : 0 ≤ nFd)
    (hfd : ¬ pFd.fd < 0) : nFd = pFd.fd := by
  rcases h with h | h
  · exact h.symm
  · omega

/-- The descriptor of an entry, muted or not, as `RemoveChannel` decodes it. -/
theorem PollFd.Carries.decode {pFd : PollFd} {nFd : ℤ} (h : pFd.Carries nFd) (h0 : 0 ≤ nFd) :
    (if pFd.fd < 0 then -pFd.fd - 1 else pFd.fd) = nFd := by
  rcases h with h | h
  · rw [h, if_neg (not_lt.mpr h0)]
  · rw [h, if_pos (by omega)]
    ring

/-- The fields of a poller, and the channels that point into it; `ι` are the channel pointers.
Source: `net/CPoller.h`, `m_vPollFds`, `m_mChannelsMap` -/
structure CPoller (ι : Type) where
  /-- `m_vPollFds`. -/
  pollFds : List PollFd
  /-- `m_mChannelsMap`. -/
  channelsMap : AList fun _ : ℤ => ι
  /-- The channels. -/
  channel : ι → CChannel

namespace CPoller

variable {ι : Type} [DecidableEq ι]

/-- A new poller beside channels that have not met it. -/
def new (fdOf : ι → ℤ) : CPoller ι where
  pollFds := []
  channelsMap := ∅
  channel := fun c => CChannel.new (fdOf c)

/-- `CChannel::SetIndex`, on a channel of the poller.
Source: `net/CChannel.cpp`, `CChannel::SetIndex` -/
def setIndex (p : CPoller ι) (c : ι) (nIndex : ℤ) : CPoller ι :=
  { p with channel := Function.update p.channel c { p.channel c with index := nIndex } }

/-- A channel of the poller with other interest bits. -/
def setEvents (p : CPoller ι) (c : ι) (nEvents : Events) : CPoller ι :=
  { p with channel := Function.update p.channel c { p.channel c with events := nEvents } }

/-- `m_mChannelsMap[nFd]` where the result is dereferenced at once: for a descriptor without an
entry the map makes one with a null pointer. -/
def channelAt (p : CPoller ι) (nFd : ℤ) : Except Fault ι :=
  match p.channelsMap.lookup nFd with
  | some c => .ok c
  | none => .error .nullPointer

/-- `m_vPollFds[nIdx]`, inside the vector. -/
def pollFdAt (p : CPoller ι) (nIdx : ℤ) : Except Fault PollFd :=
  match p.pollFds[nIdx.toNat]? with
  | some pFd => .ok pFd
  | none => .error .outOfBounds

/-- Source: `net/CPoller.cpp`, `CPoller::UpdateChannel` -/
def updateChannel (p : CPoller ι) (c : ι) : Except Fault (CPoller ι) :=
  if (p.channel c).index < 0 then do
    check (p.channelsMap.lookup (p.channel c).fd = none)
    let pFd : PollFd :=
      { fd := (p.channel c).fd
        events := (p.channel c).events.truncate 16
        revents := 0 }
    let p : CPoller ι := { p with pollFds := p.pollFds ++ [pFd] }
    let p := p.setIndex c (p.pollFds.length - 1)
    return { p with channelsMap := p.channelsMap.insert pFd.fd c }
  else do
    check (p.channelsMap.lookup (p.channel c).fd ≠ none)
    check (p.channelsMap.lookup (p.channel c).fd = some c)
    let nIdx := (p.channel c).index
    check (0 ≤ nIdx ∧ nIdx < p.pollFds.length)
    let pFd ← p.pollFdAt nIdx
    check (pFd.fd = (p.channel c).fd ∨ pFd.fd = -(p.channel c).fd - 1)
    let pFd : PollFd := { pFd with events := (p.channel c).events.truncate 16, revents := 0 }
    let pFd : PollFd :=
      if isNoneEvent (p.channel c).events then { pFd with fd := -(p.channel c).fd - 1 } else pFd
    return { p with pollFds := p.pollFds.set nIdx.toNat pFd }

/-- Source: `net/CPoller.cpp`, `CPoller::RemoveChannel` -/
def removeChannel (p : CPoller ι) (c : ι) : Except Fault (CPoller ι) := do
  check (p.channelsMap.lookup (p.channel c).fd ≠ none)
  check (p.channelsMap.lookup (p.channel c).fd = some c)
  check (isNoneEvent (p.channel c).events)
  let nIdx := (p.channel c).index
  check (0 ≤ nIdx ∧ nIdx < p.pollFds.length)
  let pFd ← p.pollFdAt nIdx
  check (pFd.fd = -(p.channel c).fd - 1 ∧ pFd.events.signExtend 32 = (p.channel c).events)
  let n := if (p.channel c).fd ∈ p.channelsMap then 1 else 0
  let p : CPoller ι := { p with channelsMap := p.channelsMap.erase (p.channel c).fd }
  check (n = 1)
  if nIdx.toNat = p.pollFds.length - 1 then
    return { p with pollFds := p.pollFds.dropLast }
  else do
    let back ← p.pollFdAt (p.pollFds.length - 1)
    let p : CPoller ι :=
      { p with pollFds := iterSwap p.pollFds nIdx.toNat (p.pollFds.length - 1) }
    let nChannelAtEnd := if back.fd < 0 then -back.fd - 1 else back.fd
    let moved ← p.channelAt nChannelAtEnd
    let p := p.setIndex moved nIdx
    return { p with pollFds := p.pollFds.dropLast }

/-- Setting interest bits and `__UpdateChannel`, as the four changes of interest do.
Source: `net/CChannel.cpp`, `CChannel::__UpdateChannel`; `net/CEventLoop.cpp`,
`CEventLoop::UpdateChannel` -/
def changeInterest (p : CPoller ι) (c : ι) (op : InterestOp) : Except Fault (CPoller ι) :=
  (p.setEvents c (op.apply (p.channel c).events)).updateChannel c

/-- Source: `net/CChannel.cpp`, `CChannel::SetEnableReading` -/
def setEnableReading (p : CPoller ι) (c : ι) : Except Fault (CPoller ι) :=
  p.changeInterest c .setEnableReading

/-- Source: `net/CChannel.cpp`, `CChannel::SetEnableWriting` -/
def setEnableWriting (p : CPoller ι) (c : ι) : Except Fault (CPoller ι) :=
  p.changeInterest c .setEnableWriting

/-- Source: `net/CChannel.cpp`, `CChannel::DisableWriting` -/
def disableWriting (p : CPoller ι) (c : ι) : Except Fault (CPoller ι) :=
  p.changeInterest c .disableWriting

/-- Source: `net/CChannel.cpp`, `CChannel::DisableAll` -/
def disableAll (p : CPoller ι) (c : ι) : Except Fault (CPoller ι) :=
  p.changeInterest c .disableAll

/-! ## Vector, map and indices in step -/

/-- The map sends the channel's descriptor to it. -/
def Registered (p : CPoller ι) (c : ι) : Prop :=
  p.channelsMap.lookup (p.channel c).fd = some c

instance (p : CPoller ι) (c : ι) : Decidable (p.Registered c) := by
  unfold Registered
  infer_instance

/-- The channel was registered, and has been removed. -/
def Removed (p : CPoller ι) (c : ι) : Prop := ¬ p.Registered c ∧ 0 ≤ (p.channel c).index

/-- The entry at the index of a channel. -/
def entry (p : CPoller ι) (c : ι) : Option PollFd := p.pollFds[(p.channel c).index.toNat]?

section inv

variable {p : CPoller ι} {c d : ι}

@[simp] theorem setEvents_channel_fd (p : CPoller ι) (c d : ι) (nEvents : Events) :
    ((p.setEvents c nEvents).channel d).fd = (p.channel d).fd := by
  by_cases h : d = c
  · subst h
    simp [setEvents]
  · simp [setEvents, Function.update_of_ne h]

@[simp] theorem setEvents_channel_index (p : CPoller ι) (c d : ι) (nEvents : Events) :
    ((p.setEvents c nEvents).channel d).index = (p.channel d).index := by
  by_cases h : d = c
  · subst h
    simp [setEvents]
  · simp [setEvents, Function.update_of_ne h]

@[simp] theorem setEvents_channel_events (p : CPoller ι) (c : ι) (nEvents : Events) :
    ((p.setEvents c nEvents).channel c).events = nEvents := by
  simp [setEvents]

@[simp] theorem setEvents_pollFds (p : CPoller ι) (c : ι) (nEvents : Events) :
    (p.setEvents c nEvents).pollFds = p.pollFds := rfl

@[simp] theorem setEvents_channelsMap (p : CPoller ι) (c : ι) (nEvents : Events) :
    (p.setEvents c nEvents).channelsMap = p.channelsMap := rfl

@[simp] theorem setEvents_registered (p : CPoller ι) (c d : ι) (nEvents : Events) :
    (p.setEvents c nEvents).Registered d ↔ p.Registered d := by
  unfold Registered
  rw [setEvents_channel_fd]
  rfl

@[simp] theorem setEvents_entry (p : CPoller ι) (c d : ι) (nEvents : Events) :
    (p.setEvents c nEvents).entry d = p.entry d := by
  simp [entry]

theorem setEvents_channel_of_ne (p : CPoller ι) (nEvents : Events) (h : d ≠ c) :
    (p.setEvents c nEvents).channel d = p.channel d := by
  simp [setEvents, Function.update_of_ne h]

/-- **Vector, map and indices are in step**: channels have distinct non-negative descriptors, the
vector and the map have the same size, the map sends a descriptor to a channel that has it, and the
indices number the registered channels by the positions of the vector, where an entry carries the
descriptor of its channel. -/
structure IndexInv (p : CPoller ι) : Prop where
  /-- No two channels share a descriptor. -/
  fd_inj : ∀ c d, (p.channel c).fd = (p.channel d).fd → c = d
  /-- Descriptors are non-negative. -/
  fd_nonneg : ∀ c, 0 ≤ (p.channel c).fd
  /-- The vector and the map have the same size. -/
  size_eq : p.pollFds.length = p.channelsMap.keys.length
  /-- The map sends a descriptor to the channel that has it. -/
  map_fd : ∀ nFd c, p.channelsMap.lookup nFd = some c → (p.channel c).fd = nFd
  /-- A registered channel has a non-negative index. -/
  index_nonneg : ∀ c, p.Registered c → 0 ≤ (p.channel c).index
  /-- The entry at the index of a registered channel carries its descriptor. -/
  entry_carries : ∀ c, p.Registered c → ∃ pFd, p.entry c = some pFd ∧ pFd.Carries (p.channel c).fd
  /-- Every position is the index of a registered channel. -/
  index_surj : ∀ i < p.pollFds.length, ∃ c, p.Registered c ∧ (p.channel c).index = i

/-- A new poller is in step with channels of distinct non-negative descriptors. -/
theorem indexInv_new {fdOf : ι → ℤ} (hinj : Function.Injective fdOf) (h0 : ∀ c, 0 ≤ fdOf c) :
    IndexInv (new fdOf) where
  fd_inj _ _ h := hinj h
  fd_nonneg := h0
  size_eq := rfl
  map_fd _ _ h := by simp [new] at h
  index_nonneg _ h := by simp [Registered, new] at h
  entry_carries _ h := by simp [Registered, new] at h
  index_surj _ h := absurd h (Nat.not_lt_zero _)

/-- The index of a registered channel is a position of the vector. -/
theorem IndexInv.index_lt (h : p.IndexInv) (hc : p.Registered c) :
    (p.channel c).index < p.pollFds.length := by
  obtain ⟨pFd, hentry, -⟩ := h.entry_carries c hc
  have hlt : (p.channel c).index.toNat < p.pollFds.length := by
    by_contra hnot
    rw [entry, List.getElem?_eq_none (not_lt.mp hnot)] at hentry
    cases hentry
  have h0 := h.index_nonneg c hc
  omega

/-- No two registered channels share an index. -/
theorem IndexInv.index_inj (h : p.IndexInv) (hc : p.Registered c) (hd : p.Registered d)
    (hcd : (p.channel c).index = (p.channel d).index) : c = d := by
  obtain ⟨pFd, hentry, hcarries⟩ := h.entry_carries c hc
  obtain ⟨pFd', hentry', hcarries'⟩ := h.entry_carries d hd
  rw [entry, ← hcd] at hentry'
  rw [entry, hentry', Option.some.injEq] at hentry
  subst hentry
  exact h.fd_inj c d (hcarries.unique hcarries' (h.fd_nonneg c) (h.fd_nonneg d))

/-- The index is a bijection from the registered channels onto the positions of the vector. -/
theorem IndexInv.bijOn_index (h : p.IndexInv) :
    Set.BijOn (fun c => (p.channel c).index) {c | p.Registered c} (Set.Ico 0 p.pollFds.length) := by
  refine ⟨fun c hc => ⟨h.index_nonneg c hc, h.index_lt hc⟩,
    fun c hc d hd hcd => h.index_inj hc hd hcd, fun i hi => ?_⟩
  obtain ⟨c, hc, hi'⟩ := h.index_surj i.toNat (by have := hi.1; have := hi.2; omega)
  exact ⟨c, hc, hi'.trans (Int.toNat_of_nonneg hi.1)⟩

/-- Interest bits play no part in the index structure. -/
theorem IndexInv.setEvents (h : p.IndexInv) (c : ι) (nEvents : Events) :
    (p.setEvents c nEvents).IndexInv := by
  obtain ⟨hinj, h0, hsize, hmap, hidx, hentry, hsurj⟩ := h
  constructor
  · simpa using hinj
  · simpa using h0
  · exact hsize
  · simpa using hmap
  · simpa using hidx
  · simpa using hentry
  · simpa using hsurj

/-! ## What `UpdateChannel` does -/

/-- The entry of a channel that is registered for the first time. -/
def freshEntry (ch : CChannel) : PollFd where
  fd := ch.fd
  events := ch.events.truncate 16
  revents := 0

/-- The entry of a channel after an update of its old entry: an empty interest mutes it, and
nothing unmutes it. -/
def updatedEntry (ch : CChannel) (pFd : PollFd) : PollFd where
  fd := if isNoneEvent ch.events then -ch.fd - 1 else pFd.fd
  events := ch.events.truncate 16
  revents := 0

/-- The updated entry still carries the descriptor. -/
theorem updatedEntry_carries {ch : CChannel} {pFd : PollFd} (h : pFd.Carries ch.fd) :
    (updatedEntry ch pFd).Carries ch.fd := by
  unfold updatedEntry
  by_cases hnone : isNoneEvent ch.events
  · rw [if_pos hnone]
    exact Or.inr rfl
  · rw [if_neg hnone]
    exact h

/-- The poller after the first registration of `c`. -/
def insertChannel (p : CPoller ι) (c : ι) : CPoller ι where
  pollFds := p.pollFds ++ [freshEntry (p.channel c)]
  channelsMap := p.channelsMap.insert (p.channel c).fd c
  channel := Function.update p.channel c { p.channel c with index := p.pollFds.length }

/-- The poller with another entry at the index of `c`. -/
def setEntry (p : CPoller ι) (c : ι) (pFd : PollFd) : CPoller ι :=
  { p with pollFds := p.pollFds.set (p.channel c).index.toNat pFd }

/-- A channel that is not registered has no entry in the map. -/
theorem IndexInv.lookup_eq_none (h : p.IndexInv) (hc : ¬ p.Registered c) :
    p.channelsMap.lookup (p.channel c).fd = none := by
  rcases hd : p.channelsMap.lookup (p.channel c).fd with _ | d
  · rfl
  · have hfd := h.map_fd _ _ hd
    rw [h.fd_inj d c hfd] at hd
    exact absurd hd hc

/-- `UpdateChannel` of a channel that was never registered appends its entry. -/
theorem updateChannel_fresh (h : p.IndexInv) (hreg : ¬ p.Registered c)
    (hidx : (p.channel c).index < 0) : p.updateChannel c = .ok (p.insertChannel c) := by
  have hnone := h.lookup_eq_none hreg
  simp [updateChannel, hidx, hnone, setIndex, insertChannel, freshEntry, pure, Except.pure]

/-- `UpdateChannel` of a registered channel replaces its entry. -/
theorem updateChannel_registered (h : p.IndexInv) (hreg : p.Registered c) {pFd : PollFd}
    (hentry : p.entry c = some pFd) :
    p.updateChannel c = .ok (p.setEntry c (updatedEntry (p.channel c) pFd)) := by
  have h0 := h.index_nonneg c hreg
  have hlt := h.index_lt hreg
  obtain ⟨pFd', hentry', hcarries⟩ := h.entry_carries c hreg
  rw [hentry, Option.some.injEq] at hentry'
  subst hentry'
  have hlookup : p.channelsMap.lookup (p.channel c).fd = some c := hreg
  have hcarries' : pFd.fd = (p.channel c).fd ∨ pFd.fd = -(p.channel c).fd - 1 := hcarries
  have hat : p.pollFdAt (p.channel c).index = .ok pFd := by
    unfold pollFdAt
    unfold entry at hentry
    rw [hentry]
  unfold setEntry updatedEntry
  by_cases hnone : isNoneEvent (p.channel c).events <;>
    simp [updateChannel, not_lt.mpr h0, hlookup, h0, hlt, hat, hcarries', hnone, pure, Except.pure]

/-! ### First registration -/

@[simp] theorem insertChannel_channel_self (p : CPoller ι) (c : ι) :
    (p.insertChannel c).channel c = { p.channel c with index := p.pollFds.length } := by
  simp [insertChannel]

theorem insertChannel_channel_of_ne (p : CPoller ι) (h : d ≠ c) :
    (p.insertChannel c).channel d = p.channel d := by
  simp [insertChannel, Function.update_of_ne h]

@[simp] theorem insertChannel_channel_fd (p : CPoller ι) (c d : ι) :
    ((p.insertChannel c).channel d).fd = (p.channel d).fd := by
  by_cases h : d = c
  · subst h
    simp
  · rw [insertChannel_channel_of_ne p h]

/-- Registration adds `c` to the registered channels. -/
theorem IndexInv.insertChannel_registered (h : p.IndexInv) (c d : ι) :
    (p.insertChannel c).Registered d ↔ d = c ∨ p.Registered d := by
  unfold Registered
  rw [insertChannel_channel_fd]
  by_cases hdc : d = c
  · subst hdc
    simp [insertChannel]
  · have hfd : (p.channel d).fd ≠ (p.channel c).fd := fun hfd => hdc (h.fd_inj d c hfd)
    simp [insertChannel, AList.lookup_insert_ne hfd, hdc]

/-- The new entry is the last one. -/
theorem insertChannel_entry_self (p : CPoller ι) (c : ι) :
    (p.insertChannel c).entry c = some (freshEntry (p.channel c)) := by
  simp [entry, insertChannel]

/-- Registration leaves the entries of other channels alone. -/
theorem IndexInv.insertChannel_entry_of_ne (h : p.IndexInv) (hd : p.Registered d) (hdc : d ≠ c) :
    (p.insertChannel c).entry d = p.entry d := by
  have h0 := h.index_nonneg d hd
  have hlt := h.index_lt hd
  unfold entry
  rw [insertChannel_channel_of_ne p hdc]
  exact List.getElem?_append_left (by omega)

/-- First registration keeps vector, map and indices in step. -/
theorem IndexInv.insertChannel (h : p.IndexInv) (hreg : ¬ p.Registered c) :
    (p.insertChannel c).IndexInv where
  fd_inj := by simpa using h.fd_inj
  fd_nonneg := by simpa using h.fd_nonneg
  size_eq := by
    have hnone : (p.channel c).fd ∉ p.channelsMap :=
      AList.lookup_eq_none.mp (h.lookup_eq_none hreg)
    rw [AList.mem_keys] at hnone
    simp [CPoller.insertChannel, AList.keys_insert, List.erase_of_not_mem hnone, h.size_eq]
  map_fd := by
    intro nFd d hd
    rw [insertChannel_channel_fd]
    by_cases hfd : nFd = (p.channel c).fd
    · subst hfd
      simp only [CPoller.insertChannel, AList.lookup_insert, Option.some.injEq] at hd
      rw [hd]
    · simp only [CPoller.insertChannel, AList.lookup_insert_ne hfd] at hd
      exact h.map_fd nFd d hd
  index_nonneg := by
    intro d hd
    by_cases hdc : d = c
    · subst hdc
      simp
    · rw [insertChannel_channel_of_ne p hdc]
      exact h.index_nonneg d (((h.insertChannel_registered c d).mp hd).resolve_left hdc)
  entry_carries := by
    intro d hd
    rw [insertChannel_channel_fd]
    by_cases hdc : d = c
    · subst hdc
      exact ⟨_, insertChannel_entry_self p d, Or.inl rfl⟩
    · have hd' := ((h.insertChannel_registered c d).mp hd).resolve_left hdc
      rw [h.insertChannel_entry_of_ne hd' hdc]
      exact h.entry_carries d hd'
  index_surj := by
    intro i hi
    by_cases hlast : i = p.pollFds.length
    · subst hlast
      exact ⟨c, (h.insertChannel_registered c c).mpr (Or.inl rfl), by simp⟩
    · have hi' : i < p.pollFds.length + 1 := by simpa [CPoller.insertChannel] using hi
      obtain ⟨d, hd, hdi⟩ := h.index_surj i (by omega)
      have hdc : d ≠ c := fun hdc => hreg (hdc ▸ hd)
      refine ⟨d, (h.insertChannel_registered c d).mpr (Or.inr hd), ?_⟩
      rw [insertChannel_channel_of_ne p hdc, hdi]

/-! ### Update of an entry -/

/-- The new entry is found at the index of `c`. -/
theorem IndexInv.setEntry_entry_self (h : p.IndexInv) (hc : p.Registered c) (pFd : PollFd) :
    (p.setEntry c pFd).entry c = some pFd := by
  have h0 := h.index_nonneg c hc
  have hlt := h.index_lt hc
  have hin : (p.channel c).index.toNat < p.pollFds.length := by omega
  simp [entry, setEntry, hin]

/-- An update leaves the entries of other channels alone. -/
theorem IndexInv.setEntry_entry_of_ne (h : p.IndexInv) (hc : p.Registered c) (hd : p.Registered d)
    (hdc : d ≠ c) (pFd : PollFd) : (p.setEntry c pFd).entry d = p.entry d := by
  have h0 := h.index_nonneg c hc
  have h0' := h.index_nonneg d hd
  have hne : (p.channel c).index.toNat ≠ (p.channel d).index.toNat := by
    intro heq
    exact hdc (h.index_inj hd hc (by omega))
  simp [entry, setEntry, List.getElem?_set_ne hne]

/-- An update with an entry that carries the descriptor keeps vector, map and indices in step. -/
theorem IndexInv.setEntry (h : p.IndexInv) (hc : p.Registered c) {pFd : PollFd}
    (hcarries : pFd.Carries (p.channel c).fd) : (p.setEntry c pFd).IndexInv where
  fd_inj := h.fd_inj
  fd_nonneg := h.fd_nonneg
  size_eq := by simpa [CPoller.setEntry] using h.size_eq
  map_fd := h.map_fd
  index_nonneg := h.index_nonneg
  entry_carries := by
    intro d hd
    by_cases hdc : d = c
    · subst hdc
      exact ⟨pFd, h.setEntry_entry_self hc pFd, hcarries⟩
    · rw [h.setEntry_entry_of_ne hc hd hdc]
      exact h.entry_carries d hd
  index_surj := by
    intro i hi
    exact h.index_surj i (by simpa [CPoller.setEntry] using hi)

/-! ## What `RemoveChannel` does -/

/-- `p'` is `p` without `c`: the last entry has taken the place of its entry, the map has lost its
descriptor and nothing else, and the channel whose entry was moved has been renumbered, and no
other. -/
structure Removes (p : CPoller ι) (c : ι) (p' : CPoller ι) : Prop where
  /-- The last entry has taken the place of the entry of `c`. -/
  pollFds_eq : p'.pollFds = swapRemove p.pollFds (p.channel c).index.toNat
  /-- The map has lost the descriptor of `c`. -/
  channelsMap_eq : p'.channelsMap = p.channelsMap.erase (p.channel c).fd
  /-- The channel whose entry was moved is numbered like `c` was. -/
  channel_eq : ∀ d, p'.channel d =
    if p.Registered d ∧ d ≠ c ∧ (p.channel d).index = p.pollFds.length - 1 then
      { p.channel d with index := (p.channel c).index }
    else p.channel d

/-- The channel meets the assertions of `RemoveChannel` about its interest and its entry. -/
def Removable (p : CPoller ι) (c : ι) : Prop :=
  isNoneEvent (p.channel c).events ∧
    ∃ pFd, p.entry c = some pFd ∧ pFd.fd = -(p.channel c).fd - 1 ∧
      pFd.events.signExtend 32 = (p.channel c).events

/-- The last entry belongs to a registered channel, whose descriptor it carries. -/
theorem IndexInv.exists_last (h : p.IndexInv) (hpos : 0 < p.pollFds.length) :
    ∃ m pFd, p.Registered m ∧ (p.channel m).index = p.pollFds.length - 1 ∧
      p.pollFds[p.pollFds.length - 1]? = some pFd ∧ pFd.Carries (p.channel m).fd := by
  obtain ⟨m, hm, hmi⟩ := h.index_surj (p.pollFds.length - 1) (by omega)
  obtain ⟨pFd, hentry, hcarries⟩ := h.entry_carries m hm
  rw [entry, hmi, Int.toNat_natCast] at hentry
  exact ⟨m, pFd, hm, by omega, hentry, hcarries⟩

/-- `RemoveChannel` of a registered channel that meets its assertions removes it. -/
theorem removeChannel_removes (h : p.IndexInv) (hreg : p.Registered c) (hrem : p.Removable c) :
    ∃ p', p.removeChannel c = .ok p' ∧ Removes p c p' := by
  have h0 := h.index_nonneg c hreg
  have hlt := h.index_lt hreg
  obtain ⟨hnone, pFd, hentry, hmuted, hevents⟩ := hrem
  have hlookup : p.channelsMap.lookup (p.channel c).fd = some c := hreg
  have hmem : (p.channel c).fd ∈ p.channelsMap := by
    rw [← AList.lookup_isSome, hlookup]
    rfl
  have hat : p.pollFdAt (p.channel c).index = .ok pFd := by
    unfold pollFdAt
    unfold entry at hentry
    rw [hentry]
  obtain ⟨m, back, hm, hmi, hback, hcarries⟩ := h.exists_last (by omega)
  by_cases hlast : (p.channel c).index.toNat = p.pollFds.length - 1
  · -- the entry of `c` is the last one: no channel is renumbered
    refine ⟨{ p with channelsMap := p.channelsMap.erase (p.channel c).fd,
                     pollFds := p.pollFds.dropLast }, ?_, ?_, rfl, fun d => ?_⟩
    · simp [removeChannel, hlookup, hnone, h0, hlt, hat, hmuted, hevents, hmem, hlast, pure,
        Except.pure]
    · rw [hlast, swapRemove_last]
    · rw [if_neg]
      rintro ⟨hd, hdc, hdi⟩
      exact hdc (h.index_inj hd hreg (by omega))
  · -- the last entry belongs to `m`, which moves to the index of `c`
    have hmc : m ≠ c := by
      intro heq
      rw [heq] at hmi
      omega
    have hfd : (p.channel m).fd ≠ (p.channel c).fd := fun heq => hmc (h.fd_inj m c heq)
    have hend : (p.pollFds.length - 1 : ℤ).toNat = p.pollFds.length - 1 := by omega
    have hat' : ∀ map, CPoller.pollFdAt ⟨p.pollFds, map, p.channel⟩ (p.pollFds.length - 1) =
        .ok back := by
      intro map
      unfold pollFdAt
      rw [hend, hback]
    have hdecode := hcarries.decode (h.fd_nonneg m)
    have hchannelAt : ∀ v, CPoller.channelAt
        ⟨v, p.channelsMap.erase (p.channel c).fd, p.channel⟩ (p.channel m).fd = .ok m := by
      intro v
      have hlookup' : p.channelsMap.lookup (p.channel m).fd = some m := hm
      unfold channelAt
      rw [AList.lookup_erase_ne hfd, hlookup']
    refine ⟨{ pollFds := swapRemove p.pollFds (p.channel c).index.toNat
              channelsMap := p.channelsMap.erase (p.channel c).fd
              channel := Function.update p.channel m
                { p.channel m with index := (p.channel c).index } }, ?_, rfl, rfl, fun d => ?_⟩
    · simp [removeChannel, hlookup, hnone, h0, hlt, hat, hmuted, hevents, hmem, hlast, hat',
        hdecode, hchannelAt, setIndex, swapRemove, pure, Except.pure]
    · by_cases hdm : d = m
      · subst hdm
        rw [if_pos ⟨hm, hmc, hmi⟩]
        simp
      · rw [if_neg]
        · simp [Function.update_of_ne hdm]
        · rintro ⟨hd, -, hdi⟩
          exact hdm (h.index_inj hd hm (by omega))

namespace Removes

variable {p' : CPoller ι}

/-- Removal changes no descriptor. -/
@[simp] theorem channel_fd (hr : Removes p c p') (d : ι) :
    (p'.channel d).fd = (p.channel d).fd := by
  rw [hr.channel_eq]
  split_ifs <;> rfl

/-- Removal changes no interest. -/
@[simp] theorem channel_events (hr : Removes p c p') (d : ι) :
    (p'.channel d).events = (p.channel d).events := by
  rw [hr.channel_eq]
  split_ifs <;> rfl

/-- The registered channels afterwards are the others. -/
theorem registered_iff (hr : Removes p c p') (h : p.IndexInv) (d : ι) :
    p'.Registered d ↔ d ≠ c ∧ p.Registered d := by
  unfold Registered
  rw [hr.channel_fd, hr.channelsMap_eq]
  by_cases hdc : d = c
  · subst hdc
    simp
  · have hfd : (p.channel d).fd ≠ (p.channel c).fd := fun hfd => hdc (h.fd_inj d c hfd)
    simp [AList.lookup_erase_ne hfd, hdc]

/-- Another channel's index afterwards: that of `c` if its entry was the last, its own if not. -/
theorem channel_index (hr : Removes p c p') {d : ι} (hd : p.Registered d) (hdc : d ≠ c) :
    (p'.channel d).index = if (p.channel d).index = p.pollFds.length - 1 then
      (p.channel c).index else (p.channel d).index := by
  rw [hr.channel_eq]
  by_cases hlast : (p.channel d).index = p.pollFds.length - 1
  · rw [if_pos ⟨hd, hdc, hlast⟩, if_pos hlast]
  · rw [if_neg (fun hcon => hlast hcon.2.2), if_neg hlast]

/-- **Removal keeps the entries of all other channels.** -/
theorem entry_eq (hr : Removes p c p') (h : p.IndexInv) (hc : p.Registered c) {d : ι}
    (hd : p.Registered d) (hdc : d ≠ c) : p'.entry d = p.entry d := by
  have h0 := h.index_nonneg c hc
  have hlt := h.index_lt hc
  have h0' := h.index_nonneg d hd
  have hlt' := h.index_lt hd
  have hne : (p.channel d).index ≠ (p.channel c).index := fun heq => hdc (h.index_inj hd hc heq)
  unfold entry
  rw [hr.channel_index hd hdc, hr.pollFds_eq]
  by_cases hlast : (p.channel d).index = p.pollFds.length - 1
  · rw [if_pos hlast, getElem?_swapRemove_self (by omega)]
    congr 1
    omega
  · rw [if_neg hlast]
    exact getElem?_swapRemove_of_ne (by omega) (by omega) (by omega)

/-- Removal keeps vector, map and indices in step. -/
theorem indexInv (hr : Removes p c p') (h : p.IndexInv) (hc : p.Registered c) :
    p'.IndexInv where
  fd_inj := by simpa only [hr.channel_fd] using h.fd_inj
  fd_nonneg := by simpa only [hr.channel_fd] using h.fd_nonneg
  size_eq := by
    have hmem : (p.channel c).fd ∈ p.channelsMap.keys := by
      have hlookup : p.channelsMap.lookup (p.channel c).fd = some c := hc
      rw [← AList.mem_keys, ← AList.lookup_isSome, hlookup]
      rfl
    rw [hr.pollFds_eq, hr.channelsMap_eq, length_swapRemove, AList.keys_erase,
      List.length_erase_of_mem hmem, h.size_eq]
  map_fd := by
    intro nFd d hd
    rw [hr.channelsMap_eq] at hd
    rw [hr.channel_fd]
    by_cases hfd : nFd = (p.channel c).fd
    · subst hfd
      simp at hd
    · rw [AList.lookup_erase_ne hfd] at hd
      exact h.map_fd nFd d hd
  index_nonneg := by
    intro d hd
    obtain ⟨hdc, hd⟩ := (hr.registered_iff h d).mp hd
    have h0 := h.index_nonneg c hc
    have h0' := h.index_nonneg d hd
    rw [hr.channel_index hd hdc]
    split_ifs <;> assumption
  entry_carries := by
    intro d hd
    obtain ⟨hdc, hd⟩ := (hr.registered_iff h d).mp hd
    rw [hr.channel_fd, hr.entry_eq h hc hd hdc]
    exact h.entry_carries d hd
  index_surj := by
    intro i hi
    rw [hr.pollFds_eq, length_swapRemove] at hi
    have h0 := h.index_nonneg c hc
    -- position `i` belongs to the channel that had it, or to the moved one if `c` had it
    by_cases hic : (p.channel c).index = i
    · obtain ⟨m, _, hm, hmi, -⟩ := h.exists_last (by omega)
      have hmc : m ≠ c := by
        intro heq
        rw [heq] at hmi
        omega
      refine ⟨m, (hr.registered_iff h m).mpr ⟨hmc, hm⟩, ?_⟩
      rw [hr.channel_index hm hmc, if_pos hmi, hic]
    · obtain ⟨d, hd, hdi⟩ := h.index_surj i (by omega)
      have hdc : d ≠ c := fun heq => hic (heq ▸ hdi)
      refine ⟨d, (hr.registered_iff h d).mpr ⟨hdc, hd⟩, ?_⟩
      rw [hr.channel_index hd hdc, if_neg (by omega), hdi]

end Removes

end inv

end CPoller

end Neconet
