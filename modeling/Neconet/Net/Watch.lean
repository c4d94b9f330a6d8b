import Neconet.Net.Poller

/-!
# One channel and the poller

What the poller holds about a single channel: `CPoller` as its owner meets it. The owner of one
channel changes its interest and removes it; what these calls do depends on the interest and on
four cases of the poller's state.

* `Watch`, `Watch.update`, `Watch.remove`: the four cases, and what the two functions of the poller
  do to them.
* `WatchedChannel`: a channel with its interest and its case, and its member functions.
* `watch_updateChannel`, `watch_removeChannel`: on a poller that is in step, `UpdateChannel` and
  `RemoveChannel` act on the case of their channel as `Watch.update` and `Watch.remove` say, fail
  where these fail, and leave the cases of other channels alone.
-/

set_option linter.unusedSectionVars false

namespace Neconet

/-! ## The four cases -/

/-- What the poller holds about one channel. -/
inductive Watch
  /-- Never registered. -/
  | fresh
  /-- Registered, with an entry that has the channel's descriptor. -/
  | watched
  /-- Registered, with an entry whose descriptor is negated: `poll` ignores it. -/
  | muted
  /-- Removed. -/
  | removed
  deriving DecidableEq, Repr

/-- The channel has an entry in the map. -/
def Watch.IsRegistered : Watch → Prop
  | fresh => False
  | watched => True
  | muted => True
  | removed => False

instance : DecidablePred Watch.IsRegistered := fun w => by
  cases w <;> unfold Watch.IsRegistered <;> infer_instance

/-- `UpdateChannel` of a channel with the interest `nEvents`.
Source: `net/CPoller.cpp`, `CPoller::UpdateChannel` -/
def Watch.update (w : Watch) (nEvents : Events) : Except Fault Watch :=
  match w with
  | fresh => .ok .watched
  | watched => .ok (if isNoneEvent nEvents then .muted else .watched)
  | muted => .ok .muted
  | removed => .error .assertion

/-- `RemoveChannel` of a channel with the interest `nEvents`.
Source: `net/CPoller.cpp`, `CPoller::RemoveChannel` -/
def Watch.remove (w : Watch) (nEvents : Events) : Except Fault Watch := do
  check w.IsRegistered
  check (isNoneEvent nEvents)
  check (w = .muted)
  return .removed

/-- Updates keep a registered channel registered. -/
theorem Watch.IsRegistered.update {w : Watch} (h : w.IsRegistered) (nEvents : Events) :
    ∃ w', w.update nEvents = .ok w' ∧ w'.IsRegistered := by
  cases w with
  | fresh | removed => exact h.elim
  | muted => exact ⟨.muted, rfl, trivial⟩
  | watched =>
      by_cases hnone : isNoneEvent nEvents
      · exact ⟨.muted, by simp [Watch.update, hnone], trivial⟩
      · exact ⟨.watched, by simp [Watch.update, hnone], trivial⟩

/-- A registered channel without interest is muted by an update. -/
theorem Watch.IsRegistered.update_noneEvent {w : Watch} (h : w.IsRegistered) :
    w.update noneEvent = .ok .muted := by
  cases w with
  | fresh | removed => exact h.elim
  | watched | muted => rfl

/-- A channel and what the poller holds about it. -/
structure WatchedChannel where
  /-- `m_nEvents`. -/
  events : Events
  /-- What the poller holds. -/
  watch : Watch
  deriving DecidableEq, Repr

namespace WatchedChannel

/-- Source: `net/CChannel.cpp`, `CChannel::CChannel` -/
def new : WatchedChannel where
  events := noneEvent
  watch := .fresh

/-- Setting interest bits and `__UpdateChannel`.
Source: `net/CChannel.cpp`, `CChannel::__UpdateChannel` -/
def changeInterest (ch : WatchedChannel) (op : InterestOp) : Except Fault WatchedChannel := do
  let watch ← ch.watch.update (op.apply ch.events)
  return { events := op.apply ch.events, watch := watch }

/-- Source: `net/CChannel.cpp`, `CChannel::SetEnableReading` -/
def setEnableReading (ch : WatchedChannel) : Except Fault WatchedChannel :=
  ch.changeInterest .setEnableReading

/-- Source: `net/CChannel.cpp`, `CChannel::SetEnableWriting` -/
def setEnableWriting (ch : WatchedChannel) : Except Fault WatchedChannel :=
  ch.changeInterest .setEnableWriting

/-- Source: `net/CChannel.cpp`, `CChannel::DisableWriting` -/
def disableWriting (ch : WatchedChannel) : Except Fault WatchedChannel :=
  ch.changeInterest .disableWriting

/-- Source: `net/CChannel.cpp`, `CChannel::DisableAll` -/
def disableAll (ch : WatchedChannel) : Except Fault WatchedChannel :=
  ch.changeInterest .disableAll

/-- Source: `net/CChannel.cpp`, `CChannel::IsWriting` -/
def isWriting (ch : WatchedChannel) : Bool := Neconet.isWriting ch.events

/-- `CEventLoop::RemoveChannel` of the channel.
Source: `net/CEventLoop.cpp`, `CEventLoop::RemoveChannel` -/
def remove (ch : WatchedChannel) : Except Fault WatchedChannel := do
  let watch ← ch.watch.remove ch.events
  return { ch with watch := watch }

/-- The interest after a change that returns. -/
theorem changeInterest_events {ch ch' : WatchedChannel} {op : InterestOp}
    (h : ch.changeInterest op = .ok ch') : ch'.events = op.apply ch.events := by
  obtain ⟨watch, -, h⟩ := bind_eq_ok_iff.mp h
  cases Except.ok.inj h
  rfl

/-- A change of interest without `SetEnableWriting`. -/
theorem isWriting_of_changeInterest {ch ch' : WatchedChannel} {op : InterestOp}
    (h : ch.changeInterest op = .ok ch') (hnot : ch.isWriting = false)
    (hop : op ≠ .setEnableWriting) : ch'.isWriting = false := by
  rw [isWriting, changeInterest_events h]
  exact InterestOp.isWriting_apply hnot hop

/-- What a removal that returns has done. -/
theorem remove_ok {ch ch' : WatchedChannel} (h : ch.remove = .ok ch') :
    ch' = { ch with watch := .removed } := by
  obtain ⟨watch, hwatch, h⟩ := bind_eq_ok_iff.mp h
  obtain ⟨-, -, hwatch⟩ := bind_eq_ok_iff.mp hwatch
  obtain ⟨-, -, hwatch⟩ := bind_eq_ok_iff.mp hwatch
  obtain ⟨-, -, hwatch⟩ := bind_eq_ok_iff.mp hwatch
  cases Except.ok.inj hwatch
  exact (Except.ok.inj h).symm

/-- A change of interest of a registered channel returns and keeps it registered. -/
theorem changeInterest_of_isRegistered {ch : WatchedChannel} (h : ch.watch.IsRegistered)
    (op : InterestOp) : ∃ ch', ch.changeInterest op = .ok ch' ∧ ch'.watch.IsRegistered ∧
      ch'.events = op.apply ch.events := by
  obtain ⟨w, hw, hreg⟩ := h.update (op.apply ch.events)
  exact ⟨⟨op.apply ch.events, w⟩, by simp [changeInterest, hw, pure, Except.pure], hreg, rfl⟩

/-- A change of interest that returns keeps a registered channel registered. -/
theorem changeInterest_isRegistered {ch ch' : WatchedChannel} {op : InterestOp}
    (h : ch.changeInterest op = .ok ch') (hreg : ch.watch.IsRegistered) :
    ch'.watch.IsRegistered := by
  obtain ⟨ch'', hok, hreg', -⟩ := changeInterest_of_isRegistered hreg op
  rw [h, Except.ok.injEq] at hok
  exact hok ▸ hreg'

/-- `DisableAll` mutes a registered channel. -/
theorem disableAll_of_isRegistered {ch : WatchedChannel} (h : ch.watch.IsRegistered) :
    ch.disableAll = .ok ⟨noneEvent, .muted⟩ := by
  simp [disableAll, changeInterest, InterestOp.apply, h.update_noneEvent, pure, Except.pure]

end WatchedChannel

/-! ## The poller and the four cases -/

namespace CPoller

variable {ι : Type} [DecidableEq ι]

/-- What the poller holds about the channel `c`. -/
def watch (p : CPoller ι) (c : ι) : Watch :=
  if p.Registered c then
    if (p.entry c).map PollFd.fd = some (p.channel c).fd then .watched else .muted
  else if (p.channel c).index < 0 then .fresh else .removed

section

variable {p p' : CPoller ι} {c d : ι}

theorem watch_fresh_iff : p.watch c = .fresh ↔ ¬ p.Registered c ∧ (p.channel c).index < 0 := by
  unfold watch
  split_ifs <;> simp_all

theorem watch_removed_iff : p.watch c = .removed ↔ p.Removed c := by
  unfold watch Removed
  split_ifs <;> simp_all

theorem watch_of_entry (hreg : p.Registered c) {pFd : PollFd} (hentry : p.entry c = some pFd) :
    p.watch c = if pFd.fd = (p.channel c).fd then .watched else .muted := by
  simp [watch, hreg, hentry]

/-- The case of a channel is read off registration, descriptor, entry and the sign of the index. -/
theorem watch_congr (hreg : p'.Registered c ↔ p.Registered c) (hentry : p'.entry c = p.entry c)
    (hfd : (p'.channel c).fd = (p.channel c).fd)
    (hidx : ¬ p.Registered c → (p'.channel c).index = (p.channel c).index) :
    p'.watch c = p.watch c := by
  unfold watch
  by_cases h : p.Registered c
  · rw [if_pos h, if_pos (hreg.mpr h), hentry, hfd]
  · rw [if_neg h, if_neg (fun h' => h (hreg.mp h')), hidx h]

/-- Vector, map and indices are in step, and the entries request the channels' events. -/
structure EntryInv (p : CPoller ι) : Prop where
  /-- Vector, map and indices are in step. -/
  index : p.IndexInv
  /-- Entries request the events of their channels. -/
  events : ∀ c, p.Registered c →
    ∃ pFd, p.entry c = some pFd ∧ pFd.events = (p.channel c).events.truncate 16

/-- A new poller meets the invariant. -/
theorem entryInv_new {fdOf : ι → ℤ} (hinj : Function.Injective fdOf) (h0 : ∀ c, 0 ≤ fdOf c) :
    EntryInv (new fdOf) where
  index := indexInv_new hinj h0
  events _ h := by simp [Registered, new] at h

/-- Two pollers agree on all channels but one: on their cases and their interests. -/
def SameOthers (p : CPoller ι) (c : ι) (p' : CPoller ι) : Prop :=
  ∀ d, d ≠ c → p'.watch d = p.watch d ∧ (p'.channel d).events = (p.channel d).events

/-- **`UpdateChannel` of a registered channel**, seen as the owner sees it. -/
theorem EntryInv.updateChannel_registered (h : p.EntryInv) (hreg : p.Registered c)
    (nEvents : Events) :
    ∃ p', (p.setEvents c nEvents).updateChannel c = .ok p' ∧ p'.EntryInv ∧
      (p.watch c).update nEvents = .ok (p'.watch c) ∧ (p'.channel c).events = nEvents ∧
      p.SameOthers c p' := by
  obtain ⟨pFd, hentry, hcarries⟩ := h.index.entry_carries c hreg
  have hq := h.index.setEvents c nEvents
  set q := p.setEvents c nEvents with hqdef
  have hregq : q.Registered c := by simpa [hqdef] using hreg
  have hentryq : q.entry c = some pFd := by simpa [hqdef] using hentry
  have hfd : (q.channel c).fd = (p.channel c).fd := by simp [hqdef]
  have hevents : (q.channel c).events = nEvents := by simp [hqdef]
  have hcarriesq : pFd.Carries (q.channel c).fd := hfd.symm ▸ hcarries
  set p' := q.setEntry c (updatedEntry (q.channel c) pFd) with hp'
  have hself : p'.entry c = some (updatedEntry (q.channel c) pFd) :=
    hq.setEntry_entry_self hregq _
  have hothers : ∀ d, d ≠ c → p.Registered d → p'.entry d = p.entry d := by
    intro d hdc hd
    have hdq : q.Registered d := by simpa [hqdef] using hd
    rw [hp', hq.setEntry_entry_of_ne hregq hdq hdc, hqdef, setEvents_entry]
  have hsame : ∀ d, d ≠ c → p'.channel d = p.channel d := fun d hdc =>
    setEvents_channel_of_ne p nEvents hdc
  refine ⟨p', CPoller.updateChannel_registered hq hregq hentryq,
    ⟨hq.setEntry hregq (updatedEntry_carries hcarriesq), fun d hd => ?_⟩, ?_, hevents,
    fun d hdc => ⟨?_, by rw [hsame d hdc]⟩⟩
  · by_cases hdc : d = c
    · subst hdc
      exact ⟨_, hself, rfl⟩
    · have hdp : p.Registered d := by
        have hdq : q.Registered d := hd
        simpa [hqdef] using hdq
      rw [hothers d hdc hdp, hsame d hdc]
      exact h.events d hdp
  · have hw' : p'.watch c =
        if (updatedEntry (q.channel c) pFd).fd = (q.channel c).fd then .watched else .muted := by
      have hreg' : p'.Registered c := hregq
      exact watch_of_entry hreg' hself
    have h0 := h.index.fd_nonneg c
    rw [hw', watch_of_entry hreg hentry, updatedEntry, hevents, hfd]
    rcases hcarries with hplain | hmuted
    · by_cases hnone : isNoneEvent nEvents
      · simp only [hplain, hnone, if_true, Watch.update]
        rw [if_neg (by omega)]
      · simp [hplain, hnone, Watch.update]
    · have hne : -(p.channel c).fd - 1 ≠ (p.channel c).fd := by omega
      simp [hmuted, hne, Watch.update]
  · by_cases hd : p.Registered d
    · refine watch_congr ?_ (hothers d hdc hd) (by rw [hsame d hdc]) (fun h' => absurd hd h')
      exact setEvents_registered p c d nEvents
    · have hdq : ¬ p'.Registered d := fun hd' => hd ((setEvents_registered p c d nEvents).mp hd')
      unfold watch
      rw [if_neg hd, if_neg hdq, hsame d hdc]

/-- **`UpdateChannel` of a channel that was never registered**, seen as the owner sees it. -/
theorem EntryInv.updateChannel_fresh (h : p.EntryInv) (hreg : ¬ p.Registered c)
    (hidx : (p.channel c).index < 0) (nEvents : Events) :
    ∃ p', (p.setEvents c nEvents).updateChannel c = .ok p' ∧ p'.EntryInv ∧
      (p.watch c).update nEvents = .ok (p'.watch c) ∧ (p'.channel c).events = nEvents ∧
      p.SameOthers c p' := by
  have hq := h.index.setEvents c nEvents
  set q := p.setEvents c nEvents with hqdef
  have hregq : ¬ q.Registered c := by simpa [hqdef] using hreg
  have hevents : (q.channel c).events = nEvents := by simp [hqdef]
  have hsame : ∀ d, d ≠ c → (q.insertChannel c).channel d = p.channel d := fun d hdc => by
    rw [insertChannel_channel_of_ne q hdc, hqdef, setEvents_channel_of_ne p _ hdc]
  have hregistered : ∀ d, d ≠ c → ((q.insertChannel c).Registered d ↔ p.Registered d) := by
    intro d hdc
    rw [hq.insertChannel_registered c d, or_iff_right hdc, hqdef, setEvents_registered]
  have hothers : ∀ d, d ≠ c → p.Registered d → (q.insertChannel c).entry d = p.entry d := by
    intro d hdc hd
    have hdq : q.Registered d := by simpa [hqdef] using hd
    rw [hq.insertChannel_entry_of_ne hdq hdc, hqdef, setEvents_entry]
  have hself := insertChannel_entry_self q c
  have hregc : (q.insertChannel c).Registered c := (hq.insertChannel_registered c c).mpr (Or.inl rfl)
  refine ⟨q.insertChannel c, CPoller.updateChannel_fresh hq hregq (by simpa [hqdef] using hidx),
    ⟨hq.insertChannel hregq, fun d hd => ?_⟩, ?_, by rw [insertChannel_channel_self]; exact hevents,
    fun d hdc => ⟨?_, by rw [hsame d hdc]⟩⟩
  · by_cases hdc : d = c
    · subst hdc
      exact ⟨_, hself, by rw [insertChannel_channel_self]; rfl⟩
    · have hdp := (hregistered d hdc).mp hd
      rw [hothers d hdc hdp, hsame d hdc]
      exact h.events d hdp
  · have hfresh : p.watch c = .fresh := watch_fresh_iff.mpr ⟨hreg, hidx⟩
    rw [hfresh, watch_of_entry hregc hself, insertChannel_channel_self]
    simp [freshEntry, Watch.update]
  · by_cases hd : p.Registered d
    · exact watch_congr (hregistered d hdc) (hothers d hdc hd) (by rw [hsame d hdc])
        (fun h' => absurd hd h')
    · unfold watch
      rw [if_neg hd, if_neg (fun hd' => hd ((hregistered d hdc).mp hd')), hsame d hdc]

/-- **`UpdateChannel` acts on the case of its channel as `Watch.update` says**: it fails where that
fails, and leaves the other channels alone. -/
theorem EntryInv.watch_updateChannel (h : p.EntryInv) (c : ι) (nEvents : Events) :
    (∃ p', (p.setEvents c nEvents).updateChannel c = .ok p' ∧ p'.EntryInv ∧
      (p.watch c).update nEvents = .ok (p'.watch c) ∧ (p'.channel c).events = nEvents ∧
      p.SameOthers c p') ∨
    ∃ e, (p.setEvents c nEvents).updateChannel c = .error e ∧
      (p.watch c).update nEvents = .error e := by
  by_cases hreg : p.Registered c
  · exact Or.inl (h.updateChannel_registered hreg nEvents)
  · by_cases hidx : (p.channel c).index < 0
    · exact Or.inl (h.updateChannel_fresh hreg hidx nEvents)
    · right
      have hremoved : p.watch c = .removed := watch_removed_iff.mpr ⟨hreg, not_lt.mp hidx⟩
      refine ⟨.assertion, ?_, by rw [hremoved]; rfl⟩
      have hnone : p.channelsMap.lookup ((p.setEvents c nEvents).channel c).fd = none := by
        rw [setEvents_channel_fd]
        exact h.index.lookup_eq_none hreg
      simp [updateChannel, hidx, hnone]

/-- `RemoveChannel` of a registered channel whose entry is muted and that has no interest, seen as
the owner sees it. -/
theorem EntryInv.removeChannel_muted (h : p.EntryInv) (hreg : p.Registered c)
    (hnone : isNoneEvent (p.channel c).events) (hmuted : p.watch c = .muted) :
    ∃ p', p.removeChannel c = .ok p' ∧ p'.EntryInv ∧ p'.watch c = .removed ∧
      (p'.channel c).events = (p.channel c).events ∧ p.SameOthers c p' := by
  obtain ⟨pFd, hentry, hcarries⟩ := h.index.entry_carries c hreg
  have hfd : pFd.fd = -(p.channel c).fd - 1 := by
    rcases hcarries with hplain | hneg
    · rw [watch_of_entry hreg hentry, if_pos hplain] at hmuted
      cases hmuted
    · exact hneg
  have hevents : pFd.events.signExtend 32 = (p.channel c).events := by
    obtain ⟨pFd', hentry', hevents⟩ := h.events c hreg
    rw [hentry, Option.some.injEq] at hentry'
    rw [hentry', hevents, eq_of_beq hnone]
    decide
  obtain ⟨p', hok, hr⟩ := removeChannel_removes h.index hreg ⟨hnone, pFd, hentry, hfd, hevents⟩
  have hothers : ∀ d, d ≠ c → (p'.Registered d ↔ p.Registered d) := fun d hdc => by
    rw [hr.registered_iff h.index d, and_iff_right hdc]
  refine ⟨p', hok, ⟨hr.indexInv h.index hreg, fun d hd => ?_⟩, watch_removed_iff.mpr ⟨?_, ?_⟩,
    hr.channel_events c, fun d hdc => ⟨?_, hr.channel_events d⟩⟩
  · obtain ⟨hdc, hdp⟩ := (hr.registered_iff h.index d).mp hd
    rw [hr.entry_eq h.index hreg hdp hdc, hr.channel_events]
    exact h.events d hdp
  · exact fun hc => ((hr.registered_iff h.index c).mp hc).1 rfl
  · rw [hr.channel_eq, if_neg (fun hcon => hcon.2.1 rfl)]
    exact h.index.index_nonneg c hreg
  · by_cases hd : p.Registered d
    · exact watch_congr (hothers d hdc) (hr.entry_eq h.index hreg hd hdc) (hr.channel_fd d)
        (fun h' => absurd hd h')
    · have hsame : p'.channel d = p.channel d := by
        rw [hr.channel_eq, if_neg (fun hcon => hd hcon.1)]
      unfold watch
      rw [if_neg hd, if_neg (fun hd' => hd ((hothers d hdc).mp hd')), hsame]

/-- **`RemoveChannel` acts on the case of its channel as `Watch.remove` says**: it fails where that
fails, and leaves the other channels alone. -/
theorem EntryInv.watch_removeChannel (h : p.EntryInv) (c : ι) :
    (∃ p', p.removeChannel c = .ok p' ∧ p'.EntryInv ∧
      (p.watch c).remove (p.channel c).events = .ok (p'.watch c) ∧
      (p'.channel c).events = (p.channel c).events ∧ p.SameOthers c p') ∨
    ∃ e, p.removeChannel c = .error e ∧ (p.watch c).remove (p.channel c).events = .error e := by
  by_cases hreg : p.Registered c
  · have hlookup : p.channelsMap.lookup (p.channel c).fd = some c := hreg
    have hregw : (p.watch c).IsRegistered := by
      unfold watch
      rw [if_pos hreg]
      split_ifs <;> trivial
    by_cases hnone : isNoneEvent (p.channel c).events
    · by_cases hmuted : p.watch c = .muted
      · left
        obtain ⟨p', hok, hinv, hw, hevents, hothers⟩ := h.removeChannel_muted hreg hnone hmuted
        refine ⟨p', hok, hinv, ?_, hevents, hothers⟩
        rw [hmuted] at hregw
        rw [hw, hmuted]
        simp [Watch.remove, hregw, hnone, pure, Except.pure]
      · -- the entry still has the plain descriptor
        right
        obtain ⟨pFd, hentry, -⟩ := h.index.entry_carries c hreg
        have h0 := h.index.index_nonneg c hreg
        have hlt := h.index.index_lt hreg
        have hplain : pFd.fd = (p.channel c).fd := by
          by_contra hne
          rw [watch_of_entry hreg hentry, if_neg hne] at hmuted
          exact hmuted rfl
        have hne : pFd.fd ≠ -(p.channel c).fd - 1 := by
          have hfd := h.index.fd_nonneg c
          omega
        have hat : p.pollFdAt (p.channel c).index = .ok pFd := by
          unfold pollFdAt
          unfold entry at hentry
          rw [hentry]
        refine ⟨.assertion, ?_, ?_⟩
        · simp [removeChannel, hlookup, hnone, h0, hlt, hat, hne]
        · simp [Watch.remove, hregw, hnone, hmuted]
    · right
      refine ⟨.assertion, ?_, ?_⟩
      · simp [removeChannel, hlookup, hnone]
      · simp [Watch.remove, hregw, hnone]
  · right
    have hlookup := h.index.lookup_eq_none hreg
    have hregw : ¬ (p.watch c).IsRegistered := by
      unfold watch
      rw [if_neg hreg]
      split_ifs <;> exact id
    refine ⟨.assertion, ?_, ?_⟩
    · simp [removeChannel, hlookup]
    · simp [Watch.remove, hregw]

end

end CPoller

end Neconet
