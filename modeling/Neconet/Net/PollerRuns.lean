import Neconet.Lib.Transition
import Neconet.Net.Poller

/-!
# Runs of the poller

What holds along every sequence of calls on a poller.

* `indexStructure_run`: along every sequence of `UpdateChannel` and `RemoveChannel`, whatever the
  interest bits of the channels, vector, map and indices stay in step, no assertion fails, and the
  channels that a call is not about keep their entries.
* `watchesInterest_iff`: along a sequence of changes of interest, every registered channel is
  watched for its current interest exactly if the sequence never enables a muted channel and never
  registers a channel without interest. An update mutes the entry of a channel whose interest became
  empty, but nothing restores the descriptor when interest comes back; and the entry of a first
  registration is never muted.
* `Watches.unique`: the entry that watches a channel is determined by its descriptor and interest.
-/

set_option linter.unusedSectionVars false

namespace Neconet

open Transition SwapRemove

namespace CPoller

variable {ι : Type} [DecidableEq ι]

/-! ## Updates and removals -/

/-- A call on the poller: `UpdateChannel` of a channel with the interest bits it has at the time,
or `RemoveChannel`. -/
inductive Call (ι : Type)
  | update (c : ι) (nEvents : Events)
  | remove (c : ι)
  deriving DecidableEq, Repr

/-- The poller after the call. -/
def Call.run (p : CPoller ι) : Call ι → Except Fault (CPoller ι)
  | update c nEvents => (p.setEvents c nEvents).updateChannel c
  | remove c => p.removeChannel c

/-- One call, as a relation between pollers. -/
def Call.Step (p : CPoller ι) (call : Call ι) (p' : CPoller ι) : Prop := call.run p = .ok p'

/-- A removed channel is not passed in again, and only a registered channel that meets the
assertions about its interest and entry is removed. -/
def Call.Legal (p : CPoller ι) : Call ι → Prop
  | update c _ => ¬ p.Removed c
  | remove c => p.Registered c ∧ p.Removable c

/-- What a call leaves alone. An update leaves the other channels and their entries as they are and
adds at most the channel's own descriptor to the map; a removal takes the channel's descriptor out
of the map, keeps the entries of all other channels, and renumbers exactly the one whose entry it
moved. -/
def Call.Frame (p : CPoller ι) (call : Call ι) (p' : CPoller ι) : Prop :=
  match call with
  | update c _ =>
      (p'.channelsMap = p.channelsMap ∨
        p'.channelsMap = p.channelsMap.insert (p.channel c).fd c) ∧
      ∀ d, d ≠ c → p'.channel d = p.channel d ∧ (p.Registered d → p'.entry d = p.entry d)
  | remove c =>
      p'.channelsMap = p.channelsMap.erase (p.channel c).fd ∧
      ∀ d, d ≠ c → p.Registered d → p'.entry d = p.entry d ∧
        p'.channel d = if (p.channel d).index = p.pollFds.length - 1 then
          { p.channel d with index := (p.channel c).index } else p.channel d

/-- **One call**: a legal call on a poller in step returns, leaves it in step, and leaves alone what
it is not about. -/
theorem Call.run_spec (p : CPoller ι) (call : Call ι) (h : p.IndexInv) (hlegal : call.Legal p) :
    ∃ p', Call.Step p call p' ∧ p'.IndexInv ∧ Call.Frame p call p' := by
  cases call with
  | update c nEvents =>
      have h' := h.setEvents c nEvents
      by_cases hreg : p.Registered c
      · have hreg' := (setEvents_registered p c c nEvents).mpr hreg
        obtain ⟨pFd, hentry, hcarries⟩ := h'.entry_carries c hreg'
        refine ⟨_, updateChannel_registered h' hreg' hentry,
          h'.setEntry hreg' (updatedEntry_carries hcarries), Or.inl rfl, fun d hdc => ⟨?_, fun hd => ?_⟩⟩
        · exact setEvents_channel_of_ne p nEvents hdc
        · rw [h'.setEntry_entry_of_ne hreg' ((setEvents_registered p c d nEvents).mpr hd) hdc,
            setEvents_entry]
      · have hreg' : ¬ (p.setEvents c nEvents).Registered c := by simpa using hreg
        have hidx : (p.channel c).index < 0 := by
          by_contra hnot
          exact hlegal ⟨hreg, not_lt.mp hnot⟩
        refine ⟨_, updateChannel_fresh h' hreg' (by simpa using hidx), h'.insertChannel hreg',
          Or.inr ?_, fun d hdc => ⟨?_, fun hd => ?_⟩⟩
        · simp [insertChannel]
        · rw [insertChannel_channel_of_ne _ hdc, setEvents_channel_of_ne p nEvents hdc]
        · rw [h'.insertChannel_entry_of_ne ((setEvents_registered p c d nEvents).mpr hd) hdc,
            setEvents_entry]
  | remove c =>
      obtain ⟨hreg, hrem⟩ := hlegal
      obtain ⟨p', hok, hr⟩ := removeChannel_removes h hreg hrem
      refine ⟨p', hok, hr.indexInv h hreg, hr.channelsMap_eq, fun d hdc hd =>
        ⟨hr.entry_eq h hreg hd hdc, ?_⟩⟩
      rw [hr.channel_eq]
      by_cases hlast : (p.channel d).index = p.pollFds.length - 1
      · rw [if_pos ⟨hd, hdc, hlast⟩, if_pos hlast]
      · rw [if_neg (fun hcon => hlast hcon.2.2), if_neg hlast]

/-- **The index structure of the poller.** Along every sequence of legal calls on channels with
distinct non-negative descriptors, whatever their interest bits: every call returns (no assertion
fails, no entry is created by reading the map), and leaves vector, map and indices in step, with
the frame of `Call.Frame`. -/
theorem indexStructure_run {fdOf : ι → ℤ} (hinj : Function.Injective fdOf) (h0 : ∀ c, 0 ≤ fdOf c)
    (calls : List (Call ι)) (hlegal : Along Call.Step Call.Legal (new fdOf) calls) :
    ∀ done call rest, calls = done ++ call :: rest → ∃ p p',
      Run Call.Step (new fdOf) done p ∧ Call.Step p call p' ∧ p'.IndexInv ∧
        Set.BijOn (fun c => (p'.channel c).index) {c | p'.Registered c}
          (Set.Ico 0 p'.pollFds.length) ∧
        Call.Frame p call p' := by
  intro done call rest hcalls
  obtain ⟨p, p', hrun, hst, hinv, hframe⟩ :=
    good_of_along Call.run_spec hlegal (indexInv_new hinj h0) done call rest hcalls
  exact ⟨p, p', hrun, hst, hinv, hinv.bijOn_index, hframe⟩

/-- The theorem on two channels, of which the first is registered, muted and removed while the
second keeps its entry. -/
theorem indexStructure_swap : ∃ p : CPoller Bool, ∃ p' : CPoller Bool,
    Run Call.Step (new fun c => if c then 7 else 4)
      [.update true readEvent, .update false readEvent, .update true noneEvent] p ∧
    Call.Step p (.remove true) p' ∧ p'.entry false = p.entry false := by
  have hinj : Function.Injective fun c : Bool => if c then (7 : ℤ) else 4 := by decide
  have h0 : ∀ c : Bool, 0 ≤ if c then (7 : ℤ) else 4 := by decide
  have hlegal : Along Call.Step Call.Legal (new fun c : Bool => if c then 7 else 4)
      [.update true readEvent, .update false readEvent, .update true noneEvent, .remove true] := by
    refine along_cons_iff.mpr ⟨fun hrem => absurd hrem.2 (by decide), fun p hp => ?_⟩
    cases hp
    refine along_cons_iff.mpr ⟨fun hrem => absurd hrem.2 (by decide), fun p hp => ?_⟩
    cases hp
    refine along_cons_iff.mpr ⟨fun hrem => hrem.1 (by decide), fun p hp => ?_⟩
    cases hp
    exact along_cons_iff.mpr ⟨⟨by decide, by decide, ⟨-8, 0, 0⟩, by decide, by decide, by decide⟩,
      fun p hp => along_nil⟩
  obtain ⟨p, p', hrun, hst, -, -, -, hframe⟩ :=
    indexStructure_run hinj h0 _ hlegal
      [.update true readEvent, .update false readEvent, .update true noneEvent] (.remove true) [] rfl
  refine ⟨p, p', hrun, hst, (hframe false (by decide) ?_).1⟩
  obtain ⟨p₁, h₁, hrun⟩ := run_cons_iff.mp hrun
  cases h₁
  obtain ⟨p₁, h₁, hrun⟩ := run_cons_iff.mp hrun
  cases h₁
  obtain ⟨p₁, h₁, hrun⟩ := run_cons_iff.mp hrun
  cases h₁
  rw [run_nil_iff] at hrun
  rw [← hrun]
  decide

/-! ## Changes of interest -/

/-- The entry watches the channel for its current interest: it requests the channel's events, it
has the channel's descriptor, muted exactly if the interest is empty, and it has nothing to
report. -/
structure Watches (pFd : PollFd) (ch : CChannel) : Prop where
  /-- The requested events are the interest. -/
  events_eq : pFd.events.signExtend 32 = ch.events
  /-- The entry is muted exactly if there is no interest. -/
  fd_eq : pFd.fd = if isNoneEvent ch.events then -ch.fd - 1 else ch.fd
  /-- No event is reported. -/
  revents_eq : pFd.revents = 0

/-- **Watching has no history**: the entry that watches a channel is determined by the descriptor
and the interest of the channel. -/
theorem Watches.unique {pFd pFd' : PollFd} {ch ch' : CChannel} (h : Watches pFd ch)
    (h' : Watches pFd' ch') (hfd : ch.fd = ch'.fd) (hevents : ch.events = ch'.events) :
    pFd = pFd' := by
  ext
  · rw [h.fd_eq, h'.fd_eq, hfd, hevents]
  · have heq := congrArg BitVec.toInt (h.events_eq.trans (hevents.trans h'.events_eq.symm))
    rw [BitVec.toInt_signExtend_of_le (by decide), BitVec.toInt_signExtend_of_le (by decide)] at heq
    rw [BitVec.eq_of_toInt_eq heq]
  · rw [h.revents_eq, h'.revents_eq]

/-- Every registered channel is watched for its current interest. -/
def AllWatched (p : CPoller ι) : Prop :=
  ∀ c, p.Registered c → ∃ pFd, p.entry c = some pFd ∧ Watches pFd (p.channel c)

/-- A change of interest of a channel, or its removal. -/
inductive Change (ι : Type)
  | interest (c : ι) (op : InterestOp)
  | remove (c : ι)
  deriving DecidableEq, Repr

/-- The poller after the change. -/
def Change.run (p : CPoller ι) : Change ι → Except Fault (CPoller ι)
  | interest c .setEnableReading => p.setEnableReading c
  | interest c .setEnableWriting => p.setEnableWriting c
  | interest c .disableWriting => p.disableWriting c
  | interest c .disableAll => p.disableAll c
  | remove c => p.removeChannel c

/-- The four changes of interest have one form. -/
theorem Change.run_interest (p : CPoller ι) (c : ι) (op : InterestOp) :
    Change.run p (.interest c op) = p.changeInterest c op := by
  cases op <;> rfl

/-- One change, as a relation between pollers. -/
def Change.Step (p : CPoller ι) (change : Change ι) (p' : CPoller ι) : Prop :=
  change.run p = .ok p'

/-- Changes are deterministic. -/
theorem Change.step_unique (p : CPoller ι) (change : Change ι) (p' p'' : CPoller ι)
    (h : Change.Step p change p') (h' : Change.Step p change p'') : p' = p'' := by
  rw [Change.Step, h, Except.ok.injEq] at h'
  exact h'

/-- A removed channel is not touched again, and a channel is removed without interest. -/
def Change.Legal (p : CPoller ι) : Change ι → Prop
  | interest c _ => ¬ p.Removed c
  | remove c => ¬ p.Removed c ∧ isNoneEvent (p.channel c).events

/-- The changes that the poller follows: a registered channel is not enabled while it is muted, the
first change of a channel enables it, and only a registered channel is removed. -/
def Change.Followed (p : CPoller ι) : Change ι → Prop
  | interest c op =>
      if p.Registered c then op.Enables → ¬ isNoneEvent (p.channel c).events else op.Enables
  | remove c => p.Registered c

/-- What the followed changes keep: index structure, watched channels, and channels that have
never been registered have no interest. -/
structure WatchInv (fdOf : ι → ℤ) (p : CPoller ι) : Prop where
  /-- The descriptors are the given ones. -/
  fd_eq : ∀ c, (p.channel c).fd = fdOf c
  /-- Vector, map and indices are in step. -/
  index : p.IndexInv
  /-- Every registered channel is watched. -/
  watched : p.AllWatched
  /-- The interest bits have been built by the four changes. -/
  interest : ∀ c, IsInterest (p.channel c).events
  /-- No interest before the first registration. -/
  fresh : ∀ c, (p.channel c).index < 0 → (p.channel c).events = noneEvent

/-- A new poller meets the invariant. -/
theorem watchInv_new {fdOf : ι → ℤ} (hinj : Function.Injective fdOf) (h0 : ∀ c, 0 ≤ fdOf c) :
    WatchInv fdOf (new fdOf) where
  fd_eq _ := rfl
  index := indexInv_new hinj h0
  watched _ h := by simp [Registered, new] at h
  interest _ := Or.inl rfl
  fresh _ _ := rfl

section change

variable {fdOf : ι → ℤ} {p p' : CPoller ι} {c : ι} {op : InterestOp}

/-- A first registration watches a channel that has interest, and only such a one. -/
theorem watches_freshEntry_iff {ch : CChannel} (hfd : 0 ≤ ch.fd) (h : IsInterest ch.events) :
    Watches (freshEntry ch) ch ↔ isNoneEvent ch.events = false := by
  constructor
  · intro hw
    by_contra hnone
    have hmuted := hw.fd_eq
    rw [Bool.not_eq_false] at hnone
    rw [if_pos hnone] at hmuted
    change ch.fd = -ch.fd - 1 at hmuted
    linarith only [hmuted, hfd]
  · intro hnone
    refine ⟨h.signExtend_truncate, ?_, rfl⟩
    rw [hnone, if_neg Bool.false_ne_true]
    rfl

/-- An update watches a channel unless it gives interest to one whose entry is muted. -/
theorem watches_updatedEntry_iff {ch : CChannel} {pFd : PollFd} (h : IsInterest ch.events) :
    Watches (updatedEntry ch pFd) ch ↔ isNoneEvent ch.events ∨ pFd.fd = ch.fd := by
  have hevents : (updatedEntry ch pFd).events.signExtend 32 = ch.events := h.signExtend_truncate
  by_cases hnone : isNoneEvent ch.events
  · have hfd : (updatedEntry ch pFd).fd = -ch.fd - 1 := if_pos hnone
    exact ⟨fun _ => Or.inl hnone, fun _ => ⟨hevents, by rw [hfd, if_pos hnone], rfl⟩⟩
  · have hfd : (updatedEntry ch pFd).fd = pFd.fd := if_neg hnone
    constructor
    · intro hw
      have hfd' := hw.fd_eq
      rw [hfd, if_neg hnone] at hfd'
      exact Or.inr hfd'
    · rintro (hnone' | hfd')
      · exact absurd hnone' hnone
      · exact ⟨hevents, by rw [hfd, if_neg hnone, hfd'], rfl⟩

/-- The changes keep the invariant if they keep it for their channel, and the other channels'
descriptors, interests and entries. -/
theorem WatchInv.of_frame (h : WatchInv fdOf p) (hindex : p'.IndexInv)
    (hfd : ∀ d, (p'.channel d).fd = (p.channel d).fd)
    (hself : p'.Registered c → ∃ pFd, p'.entry c = some pFd ∧ Watches pFd (p'.channel c))
    (hinterest : IsInterest (p'.channel c).events)
    (hfresh : (p'.channel c).index < 0 → (p'.channel c).events = noneEvent)
    (hothers : ∀ d, d ≠ c → (p'.channel d).events = (p.channel d).events ∧
      ((p'.channel d).index < 0 → (p.channel d).index < 0) ∧
      (p'.Registered d → p.Registered d ∧ p'.entry d = p.entry d)) : WatchInv fdOf p' where
  fd_eq d := (hfd d).trans (h.fd_eq d)
  index := hindex
  watched := by
    intro d hd
    by_cases hdc : d = c
    · subst hdc
      exact hself hd
    · obtain ⟨hevents, -, hreg⟩ := hothers d hdc
      obtain ⟨hd, hentry⟩ := hreg hd
      obtain ⟨pFd, hp, hw⟩ := h.watched d hd
      refine ⟨pFd, hentry.trans hp, ?_, ?_, hw.revents_eq⟩
      · rw [hevents, hw.events_eq]
      · rw [hevents, hfd, hw.fd_eq]
  interest := by
    intro d
    by_cases hdc : d = c
    · subst hdc
      exact hinterest
    · rw [(hothers d hdc).1]
      exact h.interest d
  fresh := by
    intro d hd
    by_cases hdc : d = c
    · subst hdc
      exact hfresh hd
    · obtain ⟨hevents, hidx, -⟩ := hothers d hdc
      rw [hevents]
      exact h.fresh d (hidx hd)

/-- **First change of a channel**: it registers the channel, and the channel is watched exactly if
the change enables it. -/
theorem WatchInv.changeInterest_fresh (h : WatchInv fdOf p) (hreg : ¬ p.Registered c)
    (hlegal : ¬ p.Removed c) (op : InterestOp) :
    ∃ p', p.changeInterest c op = .ok p' ∧ (op.Enables → WatchInv fdOf p') ∧
      (¬ op.Enables → ¬ p'.AllWatched) := by
  have hidx : (p.channel c).index < 0 := by
    by_contra hnot
    exact hlegal ⟨hreg, not_lt.mp hnot⟩
  have hq := h.index.setEvents c (op.apply (p.channel c).events)
  set q := p.setEvents c (op.apply (p.channel c).events) with hqdef
  have hregq : ¬ q.Registered c := by simpa [hqdef] using hreg
  have hevents : (q.channel c).events = op.apply (p.channel c).events := by simp [hqdef]
  have hint : IsInterest (q.channel c).events := hevents ▸ (h.interest c).apply op
  have hch : (q.insertChannel c).channel c = { q.channel c with index := q.pollFds.length } :=
    insertChannel_channel_self q c
  have hw : Watches (freshEntry (q.channel c)) ((q.insertChannel c).channel c) ↔ op.Enables := by
    have hiff := watches_freshEntry_iff (hq.fd_nonneg c) hint
    rw [hch]
    constructor
    · intro hwatches
      have hsome := hiff.mp ⟨hwatches.events_eq, hwatches.fd_eq, hwatches.revents_eq⟩
      by_contra hop
      rw [hevents, h.fresh c hidx, InterestOp.apply_noneEvent hop] at hsome
      exact absurd hsome (by decide)
    · intro hop
      obtain ⟨he, hf, hr⟩ := hiff.mpr (by rw [hevents, hop.apply_ne (h.interest c)])
      exact ⟨he, hf, hr⟩
  refine ⟨q.insertChannel c, updateChannel_fresh hq hregq (by simpa [hqdef] using hidx),
    fun hop => ?_, fun hop hall => ?_⟩
  · refine h.of_frame (hq.insertChannel hregq) (by simp [hqdef])
      (fun _ => ⟨_, insertChannel_entry_self q c, hw.mpr hop⟩) ?_ ?_ (fun d hdc => ?_)
    · rw [hch]
      exact hint
    · rw [hch]
      intro hneg
      exact absurd hneg (not_lt.mpr (Int.natCast_nonneg _))
    · have hd : (q.insertChannel c).channel d = p.channel d := by
        rw [insertChannel_channel_of_ne q hdc, hqdef, setEvents_channel_of_ne p _ hdc]
      rw [hd]
      refine ⟨rfl, id, fun hdreg => ?_⟩
      have hdq := ((hq.insertChannel_registered c d).mp hdreg).resolve_left hdc
      refine ⟨by simpa [hqdef] using hdq, ?_⟩
      rw [hq.insertChannel_entry_of_ne hdq hdc, hqdef, setEvents_entry]
  · obtain ⟨pFd, hentry, hwatches⟩ := hall c ((hq.insertChannel_registered c c).mpr (Or.inl rfl))
    rw [insertChannel_entry_self, Option.some.injEq] at hentry
    subst hentry
    exact hop (hw.mp hwatches)

/-- **Later change of a channel**: the channel stays watched unless the change gives interest to a
channel that is muted. -/
theorem WatchInv.changeInterest_registered (h : WatchInv fdOf p) (hreg : p.Registered c)
    (op : InterestOp) :
    ∃ p', p.changeInterest c op = .ok p' ∧
      ((op.Enables → ¬ isNoneEvent (p.channel c).events) → WatchInv fdOf p') ∧
      (¬ (op.Enables → ¬ isNoneEvent (p.channel c).events) → ¬ p'.AllWatched) := by
  obtain ⟨pFd, hentry, hwatches⟩ := h.watched c hreg
  have hq := h.index.setEvents c (op.apply (p.channel c).events)
  set q := p.setEvents c (op.apply (p.channel c).events) with hqdef
  have hregq : q.Registered c := by simpa [hqdef] using hreg
  have hentryq : q.entry c = some pFd := by simpa [hqdef] using hentry
  have hevents : (q.channel c).events = op.apply (p.channel c).events := by simp [hqdef]
  have hfd : (q.channel c).fd = (p.channel c).fd := by simp [hqdef]
  have hint : IsInterest (q.channel c).events := hevents ▸ (h.interest c).apply op
  have hiff : Watches (updatedEntry (q.channel c) pFd) (q.channel c) ↔ _ :=
    watches_updatedEntry_iff hint
  have hcarries : pFd.Carries (q.channel c).fd := by
    obtain ⟨pFd', hentry', hcarries⟩ := hq.entry_carries c hregq
    rw [hentryq, Option.some.injEq] at hentry'
    exact hentry' ▸ hcarries
  refine ⟨_, updateChannel_registered hq hregq hentryq, fun hok => ?_, fun hok hall => ?_⟩
  · refine h.of_frame (hq.setEntry hregq (updatedEntry_carries hcarries))
      (setEvents_channel_fd p c · _)
      (fun _ => ⟨_, hq.setEntry_entry_self hregq _, hiff.mpr ?_⟩) hint (fun hneg => ?_)
      (fun d hdc => ?_)
    · by_cases hnone : isNoneEvent (p.channel c).events
      · left
        have hop : ¬ op.Enables := fun hop => hok hop hnone
        rw [hevents, eq_of_beq hnone, InterestOp.apply_noneEvent hop]
        decide
      · right
        rw [hwatches.fd_eq, if_neg hnone, hfd]
    · have hneg' : (q.channel c).index < 0 := hneg
      exact absurd (hq.index_nonneg c hregq) (not_le.mpr hneg')
    · have hd : (q.setEntry c (updatedEntry (q.channel c) pFd)).channel d = p.channel d :=
        setEvents_channel_of_ne p _ hdc
      rw [hd]
      refine ⟨rfl, id, fun hdreg => ?_⟩
      have hdq : q.Registered d := hdreg
      refine ⟨by simpa [hqdef] using hdq, ?_⟩
      rw [hq.setEntry_entry_of_ne hregq hdq hdc, hqdef, setEvents_entry]
  · push Not at hok
    obtain ⟨hop, hnone⟩ := hok
    obtain ⟨pFd', hentry', hwatches'⟩ := hall c hregq
    rw [hq.setEntry_entry_self hregq, Option.some.injEq] at hentry'
    subst hentry'
    have hmuted := hwatches.fd_eq
    rw [if_pos hnone] at hmuted
    have h0 := h.index.fd_nonneg c
    rcases hiff.mp hwatches' with hnone' | hfd'
    · rw [hevents, hop.apply_ne (h.interest c)] at hnone'
      exact absurd hnone' (by decide)
    · rw [hfd] at hfd'
      linarith only [hmuted, hfd', h0]

/-- Removal of a registered channel without interest keeps the invariant. -/
theorem WatchInv.removeChannel (h : WatchInv fdOf p) (hreg : p.Registered c)
    (hnone : isNoneEvent (p.channel c).events) :
    ∃ p', p.removeChannel c = .ok p' ∧ WatchInv fdOf p' := by
  obtain ⟨pFd, hentry, hwatches⟩ := h.watched c hreg
  have hmuted := hwatches.fd_eq
  rw [if_pos hnone] at hmuted
  obtain ⟨p', hok, hr⟩ :=
    removeChannel_removes h.index hreg ⟨hnone, pFd, hentry, hmuted, hwatches.events_eq⟩
  have hself : ¬ p'.Registered c := fun hc => ((hr.registered_iff h.index c).mp hc).1 rfl
  refine ⟨p', hok, h.of_frame (hr.indexInv h.index hreg) hr.channel_fd
    (fun hc => absurd hc hself) ?_ ?_ (fun d hdc => ⟨hr.channel_events d, fun hneg => ?_, fun hd => ?_⟩)⟩
  · rw [hr.channel_events]
    exact h.interest c
  · intro _
    rw [hr.channel_events]
    exact eq_of_beq hnone
  · rw [hr.channel_eq] at hneg
    split_ifs at hneg with hmoved
    · exact absurd (h.index.index_nonneg c hreg) (not_le.mpr hneg)
    · exact hneg
  · obtain ⟨-, hd⟩ := (hr.registered_iff h.index d).mp hd
    exact ⟨hd, hr.entry_eq h.index hreg hd hdc⟩

end change

/-- Changes that are followed are possible and keep the channels watched. -/
theorem WatchInv.step_of_followed {fdOf : ι → ℤ} (p : CPoller ι) (change : Change ι) (h : WatchInv fdOf p)
    (hlegal : change.Legal p) (hok : change.Followed p) :
    ∃ p', Change.Step p change p' ∧ WatchInv fdOf p' ∧ p'.AllWatched := by
  cases change with
  | interest c op =>
      unfold Change.Step
      rw [Change.run_interest]
      by_cases hreg : p.Registered c
      · rw [Change.Followed, if_pos hreg] at hok
        obtain ⟨p', hrun, hinv, -⟩ := h.changeInterest_registered hreg op
        exact ⟨p', hrun, hinv hok, (hinv hok).watched⟩
      · rw [Change.Followed, if_neg hreg] at hok
        obtain ⟨p', hrun, hinv, -⟩ := h.changeInterest_fresh hreg hlegal op
        exact ⟨p', hrun, hinv hok, (hinv hok).watched⟩
  | remove c =>
      obtain ⟨p', hrun, hinv⟩ := h.removeChannel hok hlegal.2
      exact ⟨p', hrun, hinv, hinv.watched⟩

/-- Changes that are not followed fail, or leave a channel that is not watched. -/
theorem WatchInv.not_allWatched_of_not_followed {fdOf : ι → ℤ} (p : CPoller ι) (change : Change ι)
    (p' : CPoller ι) (h : WatchInv fdOf p) (hlegal : change.Legal p) (hnot : ¬ change.Followed p)
    (hst : Change.Step p change p') : ¬ p'.AllWatched := by
  cases change with
  | interest c op =>
      unfold Change.Step at hst
      rw [Change.run_interest] at hst
      by_cases hreg : p.Registered c
      · rw [Change.Followed, if_pos hreg] at hnot
        obtain ⟨p'', hrun, -, hbad⟩ := h.changeInterest_registered hreg op
        rw [hst, Except.ok.injEq] at hrun
        exact hrun ▸ hbad hnot
      · rw [Change.Followed, if_neg hreg] at hnot
        obtain ⟨p'', hrun, -, hbad⟩ := h.changeInterest_fresh hreg hlegal op
        rw [hst, Except.ok.injEq] at hrun
        exact hrun ▸ hbad hnot
  | remove c =>
      -- the map assertion at the head of `RemoveChannel` fails
      have hrun : p.removeChannel c = .ok p' := hst
      unfold CPoller.removeChannel at hrun
      obtain ⟨-, -, hrun⟩ := bind_eq_ok_iff.mp hrun
      obtain ⟨_, hlookup, -⟩ := bind_eq_ok_iff.mp hrun
      exact absurd (check_eq_ok_iff.mp hlookup) hnot

/-- **What the poller watches.** For channels with distinct non-negative descriptors and any legal
sequence of changes: every change returns and leaves every registered channel watched for its
current interest exactly if all changes are of the kinds that the poller follows. Two such sequences
that end in the same interest for a registered channel leave it with the same entry. -/
theorem watchesInterest_iff {fdOf : ι → ℤ} (hinj : Function.Injective fdOf) (h0 : ∀ c, 0 ≤ fdOf c)
    (changes : List (Change ι)) (hlegal : Along Change.Step Change.Legal (new fdOf) changes) :
    (Along Change.Step Change.Followed (new fdOf) changes ↔
      ∀ done change rest, changes = done ++ change :: rest → ∃ p p',
        Run Change.Step (new fdOf) done p ∧ Change.Step p change p' ∧ p'.AllWatched) ∧
    ∀ changes' p p' c, Along Change.Step Change.Followed (new fdOf) changes →
      Along Change.Step (fun q change => Change.Legal q change ∧ Change.Followed q change)
        (new fdOf) changes' →
      Run Change.Step (new fdOf) changes p → Run Change.Step (new fdOf) changes' p' →
      p.Registered c → p'.Registered c → (p.channel c).events = (p'.channel c).events →
      p.entry c = p'.entry c := by
  have hnew := watchInv_new hinj h0
  constructor
  · exact along_iff_good Change.step_unique WatchInv.step_of_followed
      WatchInv.not_allWatched_of_not_followed hlegal hnew
  · intro changes' p p' c hok hok' hrun hrun' hreg hreg' hevents
    have hkeep : ∀ q change q', WatchInv fdOf q →
        Change.Legal q change ∧ Change.Followed q change → Change.Step q change q' →
        WatchInv fdOf q' := by
      intro q change q' h hok hst
      obtain ⟨q'', hst', hinv, -⟩ := WatchInv.step_of_followed q change h hok.1 hok.2
      rw [Change.step_unique q change q' q'' hst hst']
      exact hinv
    have hinv := hrun.invariant_along hkeep (hlegal.and hok) hnew
    have hinv' := hrun'.invariant_along hkeep hok' hnew
    obtain ⟨pFd, hentry, hw⟩ := hinv.watched c hreg
    obtain ⟨pFd', hentry', hw'⟩ := hinv'.watched c hreg'
    rw [hentry, hentry', hw.unique hw' ((hinv.fd_eq c).trans (hinv'.fd_eq c).symm) hevents]

/-- The theorem on one channel that is enabled for reading and writing, disabled step by step and
removed. -/
theorem watchesInterest_disable_remove : ∃ p p' : CPoller Unit,
    Run Change.Step (new fun _ => 5) [.interest () .setEnableReading,
      .interest () .setEnableWriting, .interest () .disableWriting, .interest () .disableAll] p ∧
    Change.Step p (.remove ()) p' ∧ p'.AllWatched := by
  have hinj : Function.Injective fun _ : Unit => (5 : ℤ) := fun _ _ _ => rfl
  have hconditions : Along Change.Step (fun p change => Change.Legal p change ∧
      Change.Followed p change) (new fun _ : Unit => 5) [.interest () .setEnableReading,
      .interest () .setEnableWriting, .interest () .disableWriting, .interest () .disableAll,
      .remove ()] := by
    refine along_cons_iff.mpr ⟨⟨fun hrem => absurd hrem.2 (by decide), trivial⟩, fun p hp => ?_⟩
    cases hp
    refine along_cons_iff.mpr ⟨⟨fun hrem => hrem.1 rfl, fun _ => by decide⟩, fun p hp => ?_⟩
    cases hp
    refine along_cons_iff.mpr ⟨⟨fun hrem => hrem.1 rfl, fun _ => by decide⟩, fun p hp => ?_⟩
    cases hp
    refine along_cons_iff.mpr ⟨⟨fun hrem => hrem.1 rfl, fun _ => by decide⟩, fun p hp => ?_⟩
    cases hp
    exact along_cons_iff.mpr ⟨⟨⟨fun hrem => hrem.1 rfl, by decide⟩, rfl⟩, fun p hp => along_nil⟩
  exact (watchesInterest_iff hinj (fun _ => by decide) _ (hconditions.mono fun _ _ h => h.1)).1.mp 
    (hconditions.mono fun _ _ h => h.2)
    [.interest () .setEnableReading, .interest () .setEnableWriting, .interest () .disableWriting,
      .interest () .disableAll] (.remove ()) [] rfl

/-- **A channel that is switched off and on again is not watched**: its interest is back, its entry
is still muted. -/
theorem not_watchesInterest_off_on : ∃ p : CPoller Unit,
    Along Change.Step Change.Legal (new fun _ : Unit => 5) [.interest () .setEnableReading,
      .interest () .disableAll, .interest () .setEnableReading] ∧
    Run Change.Step (new fun _ => 5) [.interest () .setEnableReading, .interest () .disableAll,
      .interest () .setEnableReading] p ∧
    p.Registered () ∧ (p.channel ()).events = readEvent ∧ p.entry () = some ⟨-6, 3#16, 0#16⟩ ∧
    ¬ p.AllWatched := by
  refine ⟨_, ?_, Run.cons rfl (Run.cons rfl (Run.single rfl)), rfl, rfl, rfl, fun hall => ?_⟩
  · refine along_cons_iff.mpr ⟨fun hrem => absurd hrem.2 (by decide), fun p hp => ?_⟩
    cases hp
    refine along_cons_iff.mpr ⟨fun hrem => hrem.1 rfl, fun p hp => ?_⟩
    cases hp
    exact along_cons_iff.mpr ⟨fun hrem => hrem.1 rfl, fun p hp => along_nil⟩
  · obtain ⟨pFd, hentry, hw⟩ := hall () rfl
    cases hentry
    exact absurd hw.fd_eq (by decide)

end CPoller

end Neconet
