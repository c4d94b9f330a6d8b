import Neconet.Net.Poller

/-!
# Calls of the poller that return

What a change of interest and `RemoveChannel` have done to the map, the descriptors and the indices
when they return, on any poller at all: nothing is asked of the descriptors of its channels, some of
which may have been closed and handed out again. The assertions of the two functions say enough.

* `Updates`, `changeInterest_ok`: the four changes of interest.
* `Erases`, `removeChannel_ok`: `RemoveChannel`.
-/

namespace Neconet

set_option linter.unusedSectionVars false

namespace CPoller

variable {ι : Type} [DecidableEq ι] {p p' : CPoller ι} {c d : ι}

/-- `p'` is `p` after a change of interest of `c`: a channel that was not registered before now is,
under a descriptor that had no entry; one that was registered still is. -/
structure Updates (p : CPoller ι) (c : ι) (p' : CPoller ι) : Prop where
  /-- Channels keep their descriptors. -/
  fd_eq : ∀ d, (p'.channel d).fd = (p.channel d).fd
  /-- No index becomes negative, and that of `c` is not. -/
  index_nonneg : ∀ d, d = c ∨ 0 ≤ (p.channel d).index → 0 ≤ (p'.channel d).index
  /-- The map. -/
  map_eq : (p.channel c).index < 0 ∧ p.channelsMap.lookup (p.channel c).fd = none ∧
      p'.channelsMap = p.channelsMap.insert (p.channel c).fd c ∨
    0 ≤ (p.channel c).index ∧ p.channelsMap.lookup (p.channel c).fd = some c ∧
      p'.channelsMap = p.channelsMap

/-- A channel with another index keeps its descriptor. -/
theorem setIndex_channel_fd (p : CPoller ι) (c d : ι) (nIndex : ℤ) :
    ((p.setIndex c nIndex).channel d).fd = (p.channel d).fd := by
  by_cases h : d = c
  · subst h
    simp [setIndex]
  · simp [setIndex, h]

/-- An index that is set to a position of the vector is not negative, and no other changes. -/
theorem setIndex_channel_index {nIndex : ℤ} (hindex : 0 ≤ nIndex)
    (h : d = c ∨ 0 ≤ (p.channel d).index) : 0 ≤ ((p.setIndex c nIndex).channel d).index := by
  by_cases hd : d = c
  · subst hd
    simpa [setIndex] using hindex
  · simpa [setIndex, hd] using h.resolve_left hd

/-- `UpdateChannel`. -/
theorem updateChannel_ok (h : p.updateChannel c = .ok p') : p.Updates c p' := by
  unfold updateChannel at h
  split at h
  case isTrue hindex =>
    obtain ⟨_, hnone, h⟩ := bind_eq_ok_iff.mp h
    cases Except.ok.inj h
    refine ⟨fun d => setIndex_channel_fd _ c d _, fun d hd => ?_, Or.inl ⟨hindex, ?_, rfl⟩⟩
    · refine setIndex_channel_index ?_ hd
      simp
    · exact check_eq_ok_iff.mp hnone
  case isFalse hindex =>
    obtain ⟨-, -, h⟩ := bind_eq_ok_iff.mp h
    obtain ⟨_, hsome, h⟩ := bind_eq_ok_iff.mp h
    obtain ⟨-, -, h⟩ := bind_eq_ok_iff.mp h
    obtain ⟨pFd, -, h⟩ := bind_eq_ok_iff.mp h
    obtain ⟨-, -, h⟩ := bind_eq_ok_iff.mp h
    cases Except.ok.inj h
    refine ⟨fun d => rfl, fun d hd => ?_, Or.inr ⟨not_lt.mp hindex, check_eq_ok_iff.mp hsome, rfl⟩⟩
    rcases hd with rfl | hd
    · exact not_lt.mp hindex
    · exact hd

/-- **A change of interest that returns.** -/
theorem changeInterest_ok {op : InterestOp} (h : p.changeInterest c op = .ok p') :
    p.Updates c p' := by
  obtain ⟨hfd, hindex, hmap⟩ := updateChannel_ok h
  refine ⟨fun d => (hfd d).trans (setEvents_channel_fd p c d _), fun d hd => hindex d ?_, ?_⟩
  · rw [setEvents_channel_index]
    exact hd
  · rw [setEvents_channel_fd, setEvents_channel_index] at hmap
    exact hmap

/-! ## First registration -/

/-- The poller after the first `SetEnableReading` of `c`. -/
def firstReading (p : CPoller ι) (c : ι) : CPoller ι :=
  (p.setEvents c (InterestOp.setEnableReading.apply (p.channel c).events)).insertChannel c

/-- `SetEnableReading` of a channel that was never registered, under a descriptor without entry. -/
theorem setEnableReading_first (hindex : (p.channel c).index < 0)
    (hnone : p.channelsMap.lookup (p.channel c).fd = none) :
    p.setEnableReading c = .ok (p.firstReading c) := by
  set q := p.setEvents c (InterestOp.setEnableReading.apply (p.channel c).events) with hq
  have hindex' : (q.channel c).index < 0 := by rwa [hq, setEvents_channel_index]
  have hnone' : q.channelsMap.lookup (q.channel c).fd = none := by
    rw [hq, setEvents_channel_fd]
    exact hnone
  rw [setEnableReading, changeInterest, ← hq, updateChannel, if_pos hindex', check_of hnone', ok_bind]
  simp [firstReading, ← hq, insertChannel, setIndex, freshEntry, pure, Except.pure]

/-- The map after the first registration. -/
theorem firstReading_channelsMap (p : CPoller ι) (c : ι) :
    (p.firstReading c).channelsMap = p.channelsMap.insert (p.channel c).fd c := by
  rw [firstReading, insertChannel, setEvents_channel_fd]
  rfl

/-- The entries after the first registration. -/
theorem firstReading_pollFds (p : CPoller ι) (c : ι) :
    ∃ pFd, (p.firstReading c).pollFds = p.pollFds ++ [pFd] ∧ pFd.fd = (p.channel c).fd :=
  ⟨_, rfl, setEvents_channel_fd p c c _⟩

/-- Channels keep their descriptors. -/
theorem firstReading_channel_fd (p : CPoller ι) (c d : ι) :
    ((p.firstReading c).channel d).fd = (p.channel d).fd := by
  rw [firstReading, insertChannel_channel_fd, setEvents_channel_fd]

/-- Other channels stay as they are. -/
theorem firstReading_channel_of_ne (p : CPoller ι) (h : d ≠ c) :
    (p.firstReading c).channel d = p.channel d := by
  rw [firstReading, insertChannel_channel_of_ne _ h, setEvents_channel_of_ne _ _ h]

/-! ## Changes of interest -/

namespace Updates

/-- An entry of the map stays. -/
theorem lookup_of_lookup (h : p.Updates c p') {nFd : ℤ} (hd : p.channelsMap.lookup nFd = some d) :
    p'.channelsMap.lookup nFd = some d := by
  rcases h.map_eq with ⟨-, hnone, heq⟩ | ⟨-, -, heq⟩
  · rw [heq, AList.lookup_insert_ne, hd]
    rintro rfl
    rw [hnone] at hd
    cases hd
  · rw [heq, hd]

/-- An entry of the map was there before, or it is that of a channel that was registered for the
first time. -/
theorem lookup_cases (h : p.Updates c p') {nFd : ℤ} (hd : p'.channelsMap.lookup nFd = some d) :
    p.channelsMap.lookup nFd = some d ∨
      (d = c ∧ nFd = (p.channel c).fd ∧ (p.channel c).index < 0) := by
  rcases h.map_eq with ⟨hindex, -, heq⟩ | ⟨-, -, heq⟩
  · by_cases hfd : nFd = (p.channel c).fd
    · rw [heq, hfd, AList.lookup_insert, Option.some.injEq] at hd
      exact Or.inr ⟨hd.symm, hfd, hindex⟩
    · rw [heq, AList.lookup_insert_ne hfd] at hd
      exact Or.inl hd
  · rw [heq] at hd
    exact Or.inl hd

/-- The channel is registered afterwards. -/
theorem lookup_self (h : p.Updates c p') : p'.channelsMap.lookup (p.channel c).fd = some c := by
  rcases h.map_eq with ⟨-, -, heq⟩ | ⟨-, hsome, heq⟩
  · rw [heq, AList.lookup_insert]
  · rw [heq, hsome]

end Updates

/-- `p'` is `p` after the removal of `c`: the map has lost the entry of `c`. -/
structure Erases (p : CPoller ι) (c : ι) (p' : CPoller ι) : Prop where
  /-- Channels keep their descriptors. -/
  fd_eq : ∀ d, (p'.channel d).fd = (p.channel d).fd
  /-- No index becomes negative. -/
  index_nonneg : ∀ d, 0 ≤ (p.channel d).index → 0 ≤ (p'.channel d).index
  /-- The channel was registered. -/
  lookup_eq : p.channelsMap.lookup (p.channel c).fd = some c
  /-- The map. -/
  map_eq : p'.channelsMap = p.channelsMap.erase (p.channel c).fd

/-- **A removal that returns.** -/
theorem removeChannel_ok (h : p.removeChannel c = .ok p') : p.Erases c p' := by
  obtain ⟨-, -, h⟩ := bind_eq_ok_iff.mp h
  obtain ⟨_, hsome, h⟩ := bind_eq_ok_iff.mp h
  obtain ⟨-, -, h⟩ := bind_eq_ok_iff.mp h
  obtain ⟨_, hindex, h⟩ := bind_eq_ok_iff.mp h
  obtain ⟨pFd, -, h⟩ := bind_eq_ok_iff.mp h
  obtain ⟨-, -, h⟩ := bind_eq_ok_iff.mp h
  obtain ⟨-, -, h⟩ := bind_eq_ok_iff.mp h
  have hlookup := check_eq_ok_iff.mp hsome
  have hnonneg := (check_eq_ok_iff.mp hindex).1
  split_ifs at h
  · cases Except.ok.inj h
    exact ⟨fun d => rfl, fun d hd => hd, hlookup, rfl⟩
  · obtain ⟨back, -, h⟩ := bind_eq_ok_iff.mp h
    obtain ⟨moved, -, h⟩ := bind_eq_ok_iff.mp h
    cases Except.ok.inj h
    exact ⟨fun d => setIndex_channel_fd _ moved d _,
      fun d hd => setIndex_channel_index hnonneg (Or.inr hd), hlookup, rfl⟩

namespace Erases

/-- An entry of the map was there before, and is not that of the removed descriptor. -/
theorem lookup_iff (h : p.Erases c p') {nFd : ℤ} :
    p'.channelsMap.lookup nFd = some d ↔
      nFd ≠ (p.channel c).fd ∧ p.channelsMap.lookup nFd = some d := by
  rw [h.map_eq]
  by_cases hfd : nFd = (p.channel c).fd
  · subst hfd
    simp
  · simp [AList.lookup_erase_ne hfd, hfd]

end Erases

end CPoller

end Neconet
