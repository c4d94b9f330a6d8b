import Neconet.Net.PollerCalls
import Neconet.Net.PollerRuns

/-!
# `CPoller::Poll`

`::poll` sets the returned events of every entry, and `__FillActiveChannels` collects the channels
of the entries that have some, until it has found as many as `::poll` counted.

* `fillActiveChannels`, `poll`: the two member functions.
* `Answers`: what a successful `::poll` leaves in the entries.
* `Scanned`: what the scan has collected up to a position of the vector; `Scanned.pass` and
  `Scanned.push` are its steps, `fillFrom_scanned` is the whole scan.
* `Turn`: what an event loop does to its poller: calls, and polls in between.
* `fillActiveChannels_run`: in every reachable state a poll reports every ready channel once, in the
  order of the entries, and no other.
-/

set_option linter.unusedSectionVars false

namespace Neconet

open Transition

namespace CPoller

variable {ι : Type} [DecidableEq ι]

/-! ## The member functions -/

/-- `CChannel::SetREvents`, on a channel of the poller.
Source: `net/CChannel.cpp`, `CChannel::SetREvents` -/
def setREvents (p : CPoller ι) (c : ι) (nREvent : Events) : CPoller ι :=
  { p with channel := Function.update p.channel c { p.channel c with revents := nREvent } }

/-- The loop of `__FillActiveChannels`, at the entries that are left. -/
def fillFrom : List PollFd → CPoller ι → ℤ → List ι → Except Fault (CPoller ι × List ι)
  | [], p, _, vActiveChannels => .ok (p, vActiveChannels)
  | pFd :: rest, p, nNumEvents, vActiveChannels =>
      if nNumEvents > 0 then
        if pFd.revents.toInt > 0 then do
          check (p.channelsMap.lookup pFd.fd ≠ none)
          let channel ← p.channelAt pFd.fd
          check ((p.channel channel).fd = pFd.fd)
          fillFrom rest (p.setREvents channel (pFd.revents.signExtend 32)) (nNumEvents - 1)
            (vActiveChannels ++ [channel])
        else fillFrom rest p nNumEvents vActiveChannels
      else .ok (p, vActiveChannels)

/-- `__FillActiveChannels`: the poller, and the list.
Source: `net/CPoller.cpp`, `CPoller::__FillActiveChannels` -/
def fillActiveChannels (p : CPoller ι) (nNumEvents : ℤ) (vActiveChannels : List ι) :
    Except Fault (CPoller ι × List ι) :=
  fillFrom p.pollFds p nNumEvents vActiveChannels

/-- The poller when `::poll` has set the returned events of its entries. -/
def report (p : CPoller ι) (revents : ℕ → BitVec 16) : CPoller ι :=
  { p with pollFds := p.pollFds.mapIdx fun i pFd => { pFd with revents := revents i } }

/-- `Poll`, when `::poll` has returned `nNumEvents` and set the given returned events.
Source: `net/CPoller.cpp`, `CPoller::Poll` -/
def poll (p : CPoller ι) (nNumEvents : ℤ) (revents : ℕ → BitVec 16) (vActiveChannels : List ι) :
    Except Fault (CPoller ι × List ι) :=
  if nNumEvents > 0 then (p.report revents).fillActiveChannels nNumEvents vActiveChannels
  else .ok (p.report revents, vActiveChannels)

/-- What a successful `::poll` leaves in the entries: no returned events are negative, an entry with
a negative descriptor has none, and `nNumEvents` is the number of the entries that have some. -/
structure Answers (p : CPoller ι) (nNumEvents : ℤ) : Prop where
  /-- The sign bit of the returned events is not set. -/
  nonneg : ∀ pFd ∈ p.pollFds, 0 ≤ pFd.revents.toInt
  /-- Negative descriptors are ignored. -/
  muted : ∀ pFd ∈ p.pollFds, pFd.fd < 0 → pFd.revents = 0
  /-- The result of the call. -/
  count : nNumEvents = p.pollFds.countP fun pFd => decide (pFd.revents ≠ 0)

/-- The returned events of the entry of a channel. -/
def entryREvents (p : CPoller ι) (c : ι) : BitVec 16 := (p.entry c).elim 0 PollFd.revents

/-- The channel is registered, and its entry has returned events. -/
def Ready (p : CPoller ι) (c : ι) : Prop := p.Registered c ∧ p.entryREvents c ≠ 0

instance (p : CPoller ι) (c : ι) : Decidable (p.Ready c) :=
  inferInstanceAs (Decidable (p.Registered c ∧ p.entryREvents c ≠ 0))

/-! ## The scan -/

section scan

variable {p q : CPoller ι} {c : ι} {k : ℕ} {active vActiveChannels : List ι}

/-- The poller when the entries in front of the position `k` have been scanned. -/
def scanned (p : CPoller ι) (k : ℕ) : CPoller ι :=
  { p with channel := fun c =>
      if p.Ready c ∧ (p.channel c).index < k then
        { p.channel c with revents := (p.entryREvents c).signExtend 32 }
      else p.channel c }

/-- The list holds the ready channels in front of the position `k`, in the order of their
entries. -/
structure Scanned (p : CPoller ι) (k : ℕ) (active : List ι) : Prop where
  /-- Those in front are in the list. -/
  mem_iff : ∀ c, c ∈ active ↔ p.Ready c ∧ (p.channel c).index < k
  /-- The list is in order. -/
  ordered : active.Pairwise fun c d => (p.channel c).index < (p.channel d).index

/-- Scanning changes no descriptor. -/
theorem scanned_channel_fd (p : CPoller ι) (k : ℕ) (c : ι) :
    ((p.scanned k).channel c).fd = (p.channel c).fd := by
  simp only [scanned]
  split_ifs
  · rfl
  · rfl

/-- Scanning changes no index. -/
theorem scanned_channel_index (p : CPoller ι) (k : ℕ) (c : ι) :
    ((p.scanned k).channel c).index = (p.channel c).index := by
  simp only [scanned]
  split_ifs
  · rfl
  · rfl

/-- Two positions with the same ready channels in front of them. -/
theorem scanned_congr {j : ℕ}
    (h : ∀ c, p.Ready c → ((p.channel c).index < j ↔ (p.channel c).index < k)) :
    p.scanned j = p.scanned k := by
  have hiff : ∀ c, p.Ready c ∧ (p.channel c).index < j ↔ p.Ready c ∧ (p.channel c).index < k :=
    fun c => and_congr_right (h c)
  simp only [scanned, hiff]

/-- Before the scan. -/
theorem scanned_zero (h : p.IndexInv) : p.scanned 0 = p := by
  have hnot : ∀ c, ¬ (p.Ready c ∧ (p.channel c).index < ((0 : ℕ) : ℤ)) := by
    rintro c ⟨hready, hlt⟩
    exact absurd hlt (not_lt.mpr (h.index_nonneg c hready.1))
  simp only [scanned, hnot, if_false]

/-- Nothing has been collected before the scan. -/
theorem Scanned.zero (h : p.IndexInv) : Scanned p 0 [] where
  mem_iff := by
    intro c
    constructor
    · intro hc
      cases hc
    · rintro ⟨hready, hlt⟩
      exact absurd hlt (not_lt.mpr (h.index_nonneg c hready.1))
  ordered := List.Pairwise.nil

/-- An entry without returned events. -/
theorem Scanned.pass (hs : Scanned p k active) {j : ℕ}
    (h : ∀ c, p.Ready c → ((p.channel c).index < j ↔ (p.channel c).index < k)) :
    Scanned p j active where
  mem_iff := by
    intro c
    rw [hs.mem_iff]
    exact and_congr_right fun hready => (h c hready).symm
  ordered := hs.ordered

/-- The entry of a ready channel. -/
theorem Scanned.push (h : p.IndexInv) (hs : Scanned p k active) (hready : p.Ready c)
    (hindex : (p.channel c).index = k) : Scanned p (k + 1) (active ++ [c]) where
  mem_iff := by
    intro d
    rw [List.mem_append, List.mem_singleton, hs.mem_iff]
    constructor
    · rintro (⟨hd, hlt⟩ | rfl)
      · exact ⟨hd, by omega⟩
      · exact ⟨hready, by omega⟩
    · rintro ⟨hd, hlt⟩
      by_cases hlast : (p.channel d).index = k
      · exact Or.inr (h.index_inj hd.1 hready.1 (hlast.trans hindex.symm))
      · exact Or.inl ⟨hd, by omega⟩
  ordered := by
    refine List.pairwise_append.mpr ⟨hs.ordered, List.pairwise_singleton _ _, ?_⟩
    intro d hd e he
    rw [List.mem_singleton.mp he, hindex]
    exact ((hs.mem_iff d).mp hd).2

/-- The returned events of the ready channel are set. -/
theorem setREvents_scanned (h : p.IndexInv) (hready : p.Ready c) (hindex : (p.channel c).index = k) :
    (p.scanned k).setREvents c ((p.entryREvents c).signExtend 32) = p.scanned (k + 1) := by
  simp only [setREvents, scanned]
  congr 1
  funext d
  by_cases hd : d = c
  · subst hd
    have hbefore : ¬ (p.Ready d ∧ (p.channel d).index < (k : ℤ)) := fun hlt => by omega
    have hbehind : p.Ready d ∧ (p.channel d).index < ((k + 1 : ℕ) : ℤ) := ⟨hready, by omega⟩
    rw [Function.update_self, if_neg hbefore, if_pos hbehind]
  · rw [Function.update_of_ne hd]
    have hiff : p.Ready d ∧ (p.channel d).index < (k : ℤ) ↔
        p.Ready d ∧ (p.channel d).index < ((k + 1 : ℕ) : ℤ) := by
      refine and_congr_right fun hd' => ?_
      have hne : (p.channel d).index ≠ k := by
        intro heq
        exact hd (h.index_inj hd'.1 hready.1 (heq.trans hindex.symm))
      omega
    simp only [hiff]

/-- The entry at a position is that of a registered channel. -/
theorem IndexInv.exists_entry (h : p.IndexInv) {pFd : PollFd} (hat : p.pollFds[k]? = some pFd) :
    ∃ c, p.Registered c ∧ (p.channel c).index = k ∧ p.entryREvents c = pFd.revents ∧
      pFd.Carries (p.channel c).fd := by
  obtain ⟨hlt, -⟩ := List.getElem?_eq_some_iff.mp hat
  obtain ⟨c, hreg, hindex⟩ := h.index_surj k hlt
  obtain ⟨pFd', hentry, hcarries⟩ := h.entry_carries c hreg
  have heq : p.entry c = some pFd := by
    unfold entry
    rw [hindex, Int.toNat_natCast, hat]
  rw [heq, Option.some.injEq] at hentry
  subst hentry
  refine ⟨c, hreg, hindex, ?_, hcarries⟩
  unfold entryREvents
  rw [heq]
  rfl

/-- No ready channel has its entry where there are no returned events. -/
theorem IndexInv.lt_succ_iff (h : p.IndexInv) (hreg : p.Registered c)
    (hindex : (p.channel c).index = k) (hzero : p.entryREvents c = 0) {d : ι} (hd : p.Ready d) :
    (p.channel d).index < ((k + 1 : ℕ) : ℤ) ↔ (p.channel d).index < k := by
  have hne : (p.channel d).index ≠ k := by
    intro heq
    apply hd.2
    rw [h.index_inj hd.1 hreg (heq.trans hindex.symm), hzero]
  omega

/-- An entry without returned events is passed over, unless the scan has already stopped. -/
theorem fillFrom_pass {pFd : PollFd} {rest : List PollFd} (hzero : pFd.revents = 0)
    (nNumEvents : ℤ) :
    fillFrom (pFd :: rest) p nNumEvents vActiveChannels =
      fillFrom rest p nNumEvents vActiveChannels := by
  have hnot : ¬ pFd.revents.toInt > 0 := by
    rw [hzero]
    decide
  by_cases hleft : nNumEvents > 0
  · rw [fillFrom, if_pos hleft, if_neg hnot]
  · rw [fillFrom, if_neg hleft]
    cases rest with
    | nil => rw [fillFrom]
    | cons pFd' rest => rw [fillFrom, if_neg hleft]

/-- An entry with returned events, of a channel that the map knows by the entry's descriptor. -/
theorem fillFrom_push {pFd : PollFd} {rest : List PollFd} (hrevents : pFd.revents.toInt > 0)
    (hlookup : p.channelsMap.lookup pFd.fd = some c) (hfd : (p.channel c).fd = pFd.fd) (n : ℕ) :
    fillFrom (pFd :: rest) p ((n + 1 : ℕ) : ℤ) vActiveChannels =
      fillFrom rest (p.setREvents c (pFd.revents.signExtend 32)) n (vActiveChannels ++ [c]) := by
  have hleft : ((n + 1 : ℕ) : ℤ) > 0 := by omega
  have hless : ((n + 1 : ℕ) : ℤ) - 1 = n := by omega
  rw [fillFrom, if_pos hleft, if_pos hrevents, hless]
  simp only [channelAt, hlookup, check_of (Option.some_ne_none c), ok_bind, check_of hfd]

/-- **The whole scan**: with as many events left as there are entries with returned events, the scan
collects the ready channels that are left, and no assertion fails. -/
theorem fillFrom_scanned (h : p.IndexInv) (hnonneg : ∀ pFd ∈ p.pollFds, 0 ≤ pFd.revents.toInt)
    (hmuted : ∀ pFd ∈ p.pollFds, pFd.fd < 0 → pFd.revents = 0) {l : List PollFd}
    (hl : p.pollFds.drop k = l) (hs : Scanned p k active) :
    ∃ active', fillFrom l (p.scanned k) (l.countP fun pFd => decide (pFd.revents ≠ 0))
        (vActiveChannels ++ active) =
        .ok (p.scanned p.pollFds.length, vActiveChannels ++ active') ∧
      Scanned p p.pollFds.length active' ∧
      active'.length = active.length + l.countP fun pFd => decide (pFd.revents ≠ 0) := by
  induction l generalizing k active with
  | nil =>
      have hiff : ∀ c, p.Ready c →
          ((p.channel c).index < (p.pollFds.length : ℕ) ↔ (p.channel c).index < k) := by
        intro c hc
        have hlt := h.index_lt hc.1
        have hlen := List.drop_eq_nil_iff.mp hl
        omega
      refine ⟨active, ?_, hs.pass hiff, rfl⟩
      rw [scanned_congr hiff]
      rfl
  | cons pFd rest ih =>
      have hat : p.pollFds[k]? = some pFd := by
        have hget := congrArg (fun l : List PollFd => l[0]?) hl
        rwa [List.getElem?_drop, Nat.add_zero] at hget
      have hrest : p.pollFds.drop (k + 1) = rest := by
        rw [← List.drop_drop, hl]
        rfl
      have hmem := List.mem_of_getElem? hat
      obtain ⟨c, hreg, hindex, hrevents, hcarries⟩ := h.exists_entry hat
      by_cases hzero : pFd.revents = 0
      · have hiff : ∀ d, p.Ready d →
            ((p.channel d).index < ((k + 1 : ℕ) : ℤ) ↔ (p.channel d).index < k) :=
          fun d hd => h.lt_succ_iff hreg hindex (hrevents.trans hzero) hd
        have hcount : (pFd :: rest).countP (fun pFd => decide (pFd.revents ≠ 0)) =
            rest.countP fun pFd => decide (pFd.revents ≠ 0) :=
          List.countP_cons_of_neg (by simpa using hzero)
        rw [hcount, fillFrom_pass hzero, ← scanned_congr hiff]
        exact ih hrest (hs.pass hiff)
      · have hready : p.Ready c := ⟨hreg, by rw [hrevents]; exact hzero⟩
        have hpos : pFd.revents.toInt > 0 := by
          have hne : pFd.revents.toInt ≠ 0 := fun h0 => hzero (BitVec.eq_of_toInt_eq h0)
          have hle := hnonneg pFd hmem
          omega
        have hfd : (p.channel c).fd = pFd.fd :=
          hcarries.fd_eq (h.fd_nonneg c) fun hlt => hzero (hmuted pFd hmem hlt)
        have hlookup : (p.scanned k).channelsMap.lookup pFd.fd = some c := by
          rw [← hfd]
          exact hreg
        have hcount : (pFd :: rest).countP (fun pFd => decide (pFd.revents ≠ 0)) =
            (rest.countP fun pFd => decide (pFd.revents ≠ 0)) + 1 :=
          List.countP_cons_of_pos (by simpa using hzero)
        obtain ⟨active', hok, hs', hlength⟩ := ih hrest (hs.push h hready hindex)
        refine ⟨active', ?_, hs', ?_⟩
        · rw [hcount, fillFrom_push hpos hlookup ((scanned_channel_fd p k c).trans hfd), ← hrevents,
            setREvents_scanned h hready hindex, List.append_assoc]
          exact hok
        · rw [hlength, hcount, List.length_append, List.length_singleton]
          omega

end scan

/-! ## Polls between calls -/

section turns

variable {p p' q : CPoller ι} {fdOf : ι → ℤ}

/-- The index structure is about the map, the descriptors and the indices alone. -/
theorem IndexInv.congr (h : p.IndexInv) (hmap : q.channelsMap = p.channelsMap)
    (hfd : ∀ c, (q.channel c).fd = (p.channel c).fd)
    (hindex : ∀ c, (q.channel c).index = (p.channel c).index)
    (hfds : q.pollFds.map PollFd.fd = p.pollFds.map PollFd.fd) : q.IndexInv := by
  have hreg : ∀ c, q.Registered c ↔ p.Registered c := by
    intro c
    unfold Registered
    rw [hmap, hfd]
  have hlen : q.pollFds.length = p.pollFds.length := by
    rw [← List.length_map PollFd.fd, hfds, List.length_map]
  obtain ⟨hinj, h0, hsize, hmapFd, hnonneg, hentry, hsurj⟩ := h
  constructor
  · intro c d hcd
    rw [hfd, hfd] at hcd
    exact hinj c d hcd
  · intro c
    rw [hfd]
    exact h0 c
  · rw [hlen, hmap]
    exact hsize
  · intro nFd c hc
    rw [hmap] at hc
    rw [hfd]
    exact hmapFd nFd c hc
  · intro c hc
    rw [hindex]
    exact hnonneg c ((hreg c).mp hc)
  · intro c hc
    obtain ⟨pFd, hp, hcarries⟩ := hentry c ((hreg c).mp hc)
    have hget : (q.entry c).map PollFd.fd = some pFd.fd := by
      unfold entry at hp ⊢
      rw [hindex, ← List.getElem?_map, hfds, List.getElem?_map, hp]
      rfl
    obtain ⟨pFd', hq, heq⟩ := Option.map_eq_some_iff.mp hget
    refine ⟨pFd', hq, ?_⟩
    unfold PollFd.Carries at hcarries ⊢
    rw [hfd, heq]
    exact hcarries
  · intro i hi
    rw [hlen] at hi
    obtain ⟨c, hc, hci⟩ := hsurj i hi
    exact ⟨c, (hreg c).mpr hc, (hindex c).trans hci⟩

/-- `::poll` keeps vector, map and indices in step. -/
theorem IndexInv.report (h : p.IndexInv) (revents : ℕ → BitVec 16) :
    (p.report revents).IndexInv := by
  refine h.congr rfl (fun c => rfl) (fun c => rfl) ?_
  change (p.pollFds.mapIdx fun i pFd => { pFd with revents := revents i }).map PollFd.fd = _
  refine List.ext_getElem? fun i => ?_
  rw [List.getElem?_map, List.getElem?_mapIdx, List.getElem?_map, Option.map_map]
  rfl

/-- The scan keeps vector, map and indices in step. -/
theorem IndexInv.scanned (h : p.IndexInv) (k : ℕ) : (p.scanned k).IndexInv :=
  h.congr rfl (scanned_channel_fd p k) (scanned_channel_index p k) rfl

/-- The entry of a channel, read at its index. -/
theorem pollFdAt_ok {c : ι} {pFd : PollFd} (h : p.pollFdAt (p.channel c).index = .ok pFd) :
    p.entry c = some pFd := by
  unfold pollFdAt at h
  unfold entry
  split at h
  · rename_i pFd' hat
    rw [hat, Except.ok.inj h]
  · cases h

/-- A call that returns was legal: the assertions of the two functions see to it. -/
theorem Call.legal_of_step {call : Call ι} (hst : Call.Step p call p') : call.Legal p := by
  cases call with
  | update c nEvents =>
      rintro ⟨hreg, hindex⟩
      rcases (updateChannel_ok hst).map_eq with ⟨hneg, -, -⟩ | ⟨-, hlookup, -⟩
      · rw [setEvents_channel_index] at hneg
        omega
      · rw [setEvents_channel_fd] at hlookup
        exact hreg hlookup
  | remove c =>
      have hreg := (removeChannel_ok hst).lookup_eq
      obtain ⟨-, -, hst⟩ := bind_eq_ok_iff.mp hst
      obtain ⟨-, -, hst⟩ := bind_eq_ok_iff.mp hst
      obtain ⟨_, hnone, hst⟩ := bind_eq_ok_iff.mp hst
      obtain ⟨-, -, hst⟩ := bind_eq_ok_iff.mp hst
      obtain ⟨pFd, hat, hst⟩ := bind_eq_ok_iff.mp hst
      obtain ⟨_, hentry, hst⟩ := bind_eq_ok_iff.mp hst
      exact ⟨hreg, check_eq_ok_iff.mp hnone, pFd, pollFdAt_ok hat, check_eq_ok_iff.mp hentry⟩

/-- What an event loop does to its poller: a call, or a successful `Poll`, of which `::poll` has
returned `nNumEvents` and set the given returned events. -/
inductive Turn (ι : Type)
  | call (made : Call ι)
  | poll (nNumEvents : ℤ) (revents : ℕ → BitVec 16)

/-- One turn that returns, as a relation between pollers. -/
def Turn.Step (p : CPoller ι) (turn : Turn ι) (p' : CPoller ι) : Prop :=
  match turn with
  | .call made => Call.Step p made p'
  | .poll nNumEvents revents => (p.report revents).Answers nNumEvents ∧
      ∃ vActiveChannels, p.poll nNumEvents revents [] = .ok (p', vActiveChannels)

/-- A poll in step scans the entries that `::poll` has left. -/
theorem IndexInv.poll_eq (h : p.IndexInv) {nNumEvents : ℤ} {revents : ℕ → BitVec 16}
    (hanswers : (p.report revents).Answers nNumEvents) (hpos : 0 < nNumEvents)
    (vActiveChannels : List ι) :
    ∃ active, p.poll nNumEvents revents vActiveChannels =
        .ok ((p.report revents).scanned p.pollFds.length, vActiveChannels ++ active) ∧
      Scanned (p.report revents) p.pollFds.length active ∧ (active.length : ℤ) = nNumEvents := by
  have hr := h.report revents
  have hlen : (p.report revents).pollFds.length = p.pollFds.length := List.length_mapIdx
  obtain ⟨active, hok, hs, hlength⟩ := @fillFrom_scanned ι _ (p.report revents) 0 []
    vActiveChannels hr hanswers.nonneg hanswers.muted _ rfl (Scanned.zero hr)
  rw [List.drop_zero, ← hanswers.count, scanned_zero hr, List.append_nil, hlen] at hok
  rw [hlen] at hs
  refine ⟨active, ?_, hs, ?_⟩
  · unfold poll
    rw [if_pos hpos]
    exact hok
  · rw [hanswers.count, hlength, List.length_nil, Nat.zero_add, List.drop_zero]

/-- Every turn keeps vector, map and indices in step. -/
theorem Turn.indexInv {turn : Turn ι} (h : p.IndexInv) (hst : Turn.Step p turn p') :
    p'.IndexInv := by
  cases turn with
  | call made =>
      have hcall : Call.Step p made p' := hst
      obtain ⟨q, hq, hinv, -⟩ := Call.run_spec p made h (Call.legal_of_step hcall)
      obtain rfl := Except.ok.inj (hcall.symm.trans hq)
      exact hinv
  | poll nNumEvents revents =>
      obtain ⟨hanswers, vActiveChannels, hpoll⟩ := hst
      by_cases hpos : 0 < nNumEvents
      · obtain ⟨active, hok, -⟩ := h.poll_eq hanswers hpos []
        rw [hok] at hpoll
        obtain ⟨rfl, -⟩ := Prod.mk.inj (Except.ok.inj hpoll)
        exact (h.report revents).scanned _
      · unfold CPoller.poll at hpoll
        rw [if_neg hpos] at hpoll
        obtain ⟨rfl, -⟩ := Prod.mk.inj (Except.ok.inj hpoll)
        exact h.report revents

/-- **Every ready channel is reported once, and no other.** Let the descriptors of the channels be
distinct and non-negative. Whatever updates, removals and polls have come before, a successful poll
of `n > 0` events returns with both assertions of `__FillActiveChannels` held, and has appended to
the list the channels whose entries have returned events: each once, in the order of the entries,
`n` in number, though the scan stops at the `n`-th. It has set the returned events of each of them
to those of its entry, and has changed nothing else. -/
theorem fillActiveChannels_run (hinj : Function.Injective fdOf) (h0 : ∀ c, 0 ≤ fdOf c)
    {turns : List (Turn ι)} (hrun : Run Turn.Step (new fdOf) turns p) {nNumEvents : ℤ}
    {revents : ℕ → BitVec 16} (hanswers : (p.report revents).Answers nNumEvents)
    (hpos : 0 < nNumEvents) (vActiveChannels : List ι) :
    ∃ p' active, p.poll nNumEvents revents vActiveChannels = .ok (p', vActiveChannels ++ active) ∧
      active.Nodup ∧ (∀ c, c ∈ active ↔ (p.report revents).Ready c) ∧
      (active.Pairwise fun c d => (p.channel c).index < (p.channel d).index) ∧
      (active.length : ℤ) = nNumEvents ∧
      (∀ c, p'.channel c = if c ∈ active then
          { p.channel c with revents := ((p.report revents).entryREvents c).signExtend 32 }
        else p.channel c) ∧
      p'.pollFds = (p.report revents).pollFds ∧ p'.channelsMap = p.channelsMap := by
  have h : p.IndexInv :=
    hrun.invariant (fun s turn t hs hst => Turn.indexInv hs hst) (indexInv_new hinj h0)
  obtain ⟨active, hok, hs, hlength⟩ := h.poll_eq hanswers hpos vActiveChannels
  refine ⟨_, active, hok, ?_, ?_, hs.ordered, hlength, ?_, rfl, rfl⟩
  · refine hs.ordered.imp ?_
    intro c d hlt heq
    rw [heq] at hlt
    exact absurd hlt (lt_irrefl _)
  · intro c
    rw [hs.mem_iff]
    exact and_iff_left_of_imp fun hready => h.index_lt hready.1
  · intro c
    by_cases hc : c ∈ active
    · rw [if_pos hc]
      exact if_pos ((hs.mem_iff c).mp hc)
    · rw [if_neg hc]
      exact if_neg (fun hready => hc ((hs.mem_iff c).mpr hready))

end turns

/-- Three channels are registered, and the one in the middle is muted and removed. -/
def middleRemoved : List (Turn (Fin 3)) :=
  [.call (.update 0 readEvent), .call (.update 1 readEvent), .call (.update 2 writeEvent),
    .call (.update 1 noneEvent), .call (.remove 1)]

/-- The theorem on two channels, the second of which has been moved by the removal. -/
theorem fillActiveChannels_run_middleRemoved : ∃ p p' : CPoller (Fin 3), ∃ active,
    Run Turn.Step (new fun c => 4 + c.val) middleRemoved p ∧
    p.poll 2 (fun i => if i = 0 then 1 else 4) [] = .ok (p', [] ++ active) ∧
    active.length = 2 ∧ 2 ∈ active ∧ 1 ∉ active := by
  have hinj : Function.Injective fun c : Fin 3 => 4 + (c.val : ℤ) := by decide
  have h0 : ∀ c : Fin 3, 0 ≤ 4 + (c.val : ℤ) := by decide
  have hrun : ∃ p, Run Turn.Step (new fun c : Fin 3 => 4 + c.val) middleRemoved p ∧
      (p.report fun i => if i = 0 then 1 else 4).Answers 2 ∧
      (p.report fun i => if i = 0 then 1 else 4).Ready 2 ∧
      ¬ (p.report fun i => if i = 0 then 1 else 4).Ready 1 :=
    ⟨_, Run.cons rfl (Run.cons rfl (Run.cons rfl (Run.cons rfl (Run.single rfl)))),
      ⟨by decide, by decide, by decide⟩, by decide, by decide⟩
  obtain ⟨p, hrun, hanswers, htwo, hone⟩ := hrun
  obtain ⟨p', active, hok, -, hmem, -, hlength, -⟩ :=
    fillActiveChannels_run hinj h0 hrun hanswers (by decide) []
  refine ⟨p, p', active, hrun, hok, by omega, (hmem 2).mpr htwo, ?_⟩
  intro hin
  exact hone ((hmem 1).mp hin)

end CPoller

end Neconet
