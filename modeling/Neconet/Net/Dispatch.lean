import Neconet.Net.PollerPoll
import Neconet.Net.Watch

/-!
# Dispatch

An iteration of `StartLoop`: `Poll`, and then `HandleEvent` of every channel that it has reported. A
callback may do to any channel what it likes: change its interest, or remove it. It changes no
`m_nREvents`, and so it does not change which callbacks are still to come. A callback that is not
set, which `HandleEvent` leaves out, is one that makes no calls.

* `Dispatcher`, `handleEvent`, `handleEvents`, `iterate`: the poller and the callbacks called so
  far.
* `handleEvents_calls`: a pass calls what was reported, whatever the callbacks do.
* `dispatch_run`: in every run, an iteration calls exactly the callbacks that the entries ask for.
* `interest_run`: it calls none for which the channel has shown no interest.
-/

set_option linter.unusedSectionVars false

namespace Neconet

open Transition

/-! ## Bits -/

/-- The events that `::poll` may return without a request: `POLLERR`, `POLLHUP` and `POLLNVAL`. -/
def unrequested : BitVec 16 := (pollErr ||| pollHup ||| pollNval).truncate 16

/-- Returned events under a mask, if none of the mask is returned without a request. -/
theorem requested_of_returned {nEvents nMask : Events} {nREvents : BitVec 16}
    (hreturns : nREvents &&& ~~~(nEvents.truncate 16 ||| unrequested) = 0#16)
    (hshort : (nMask.truncate 16).zeroExtend 32 = nMask)
    (hmask : nMask.truncate 16 &&& unrequested = 0#16)
    (hreturned : nREvents.signExtend 32 &&& nMask ≠ 0#32) : nEvents &&& nMask ≠ 0#32 := by
  intro hnone
  apply hreturned
  refine BitVec.eq_of_getLsbD_eq fun i hi => ?_
  rw [BitVec.getLsbD_and, BitVec.getLsbD_zero]
  by_cases hlow : i < 16
  · have hevents := congrArg (fun x : BitVec 32 => x.getLsbD i) hnone
    have hreturns' := congrArg (fun x : BitVec 16 => x.getLsbD i) hreturns
    have hmask' := congrArg (fun x : BitVec 16 => x.getLsbD i) hmask
    simp [hlow, hi] at hevents hreturns' hmask' ⊢
    grind
  · rw [← hshort]
    simp [hlow]

namespace CPoller

variable {ι : Type} [DecidableEq ι] {p p' : CPoller ι} {c d : ι}

/-! ## What a call of a callback leaves alone -/

/-- A call that returns keeps the entries in step with the channels. -/
theorem EntryInv.call {call : Call ι} (h : p.EntryInv) (hst : Call.Step p call p') : p'.EntryInv := by
  cases call with
  | update c nEvents =>
      have hok : (p.setEvents c nEvents).updateChannel c = .ok p' := hst
      rcases h.watch_updateChannel c nEvents with ⟨q, hq, hinv, -⟩ | ⟨e, he, -⟩
      · cases Except.ok.inj (hq.symm.trans hok)
        exact hinv
      · rw [he] at hok
        cases hok
  | remove c =>
      have hok : p.removeChannel c = .ok p' := hst
      rcases h.watch_removeChannel c with ⟨q, hq, hinv, -⟩ | ⟨e, he, -⟩
      · cases Except.ok.inj (hq.symm.trans hok)
        exact hinv
      · rw [he] at hok
        cases hok

/-- A call that returns keeps the returned events of every channel. -/
theorem Call.revents_of_step {call : Call ι} (h : p.IndexInv) (hst : Call.Step p call p') (d : ι) :
    (p'.channel d).revents = (p.channel d).revents := by
  have hlegal := Call.legal_of_step hst
  cases call with
  | update c nEvents =>
      have hset : ((p.setEvents c nEvents).channel d).revents = (p.channel d).revents := by
        by_cases hd : d = c
        · subst hd
          simp [setEvents]
        · rw [setEvents_channel_of_ne p nEvents hd]
      rw [← hset]
      have h' := h.setEvents c nEvents
      by_cases hreg : (p.setEvents c nEvents).Registered c
      · obtain ⟨pFd, hentry, -⟩ := h'.entry_carries c hreg
        cases Except.ok.inj ((updateChannel_registered h' hreg hentry).symm.trans hst)
        rfl
      · have hidx : ((p.setEvents c nEvents).channel c).index < 0 := by
          by_contra hnot
          refine hlegal ⟨fun hp => hreg ((setEvents_registered p c c nEvents).mpr hp), ?_⟩
          simpa using hnot
        cases Except.ok.inj ((updateChannel_fresh h' hreg hidx).symm.trans hst)
        by_cases hd : d = c
        · subst hd
          simp
        · rw [insertChannel_channel_of_ne _ hd]
  | remove c =>
      obtain ⟨q, hq', hr⟩ := removeChannel_removes h hlegal.1 hlegal.2
      obtain rfl := Except.ok.inj (hst.symm.trans hq')
      rw [hr.channel_eq]
      split_ifs <;> rfl

/-! ## What a poll leaves behind -/

/-- The entry of a channel when `::poll` has set the returned events. -/
theorem report_entry (p : CPoller ι) (revents : ℕ → BitVec 16) (c : ι) :
    (p.report revents).entry c = (p.entry c).map fun pFd =>
      { pFd with revents := revents (p.channel c).index.toNat } :=
  List.getElem?_mapIdx

/-- `::poll` keeps the entries in step with the channels. -/
theorem EntryInv.report (h : p.EntryInv) (revents : ℕ → BitVec 16) :
    (p.report revents).EntryInv where
  index := h.index.report revents
  events c hreg := by
    obtain ⟨pFd, hentry, hevents⟩ := h.events c hreg
    refine ⟨{ pFd with revents := revents (p.channel c).index.toNat }, ?_, hevents⟩
    rw [report_entry, hentry]
    rfl

/-- The scan keeps the entries in step with the channels. -/
theorem EntryInv.scanned (h : p.EntryInv) (k : ℕ) : (p.scanned k).EntryInv where
  index := h.index.scanned k
  events c hreg := by
    have hreg' : p.Registered c := by
      have hlookup : p.channelsMap.lookup ((p.scanned k).channel c).fd = some c := hreg
      rw [scanned_channel_fd] at hlookup
      exact hlookup
    obtain ⟨pFd, hentry, hevents⟩ := h.events c hreg'
    have hsame : ((p.scanned k).channel c).events = (p.channel c).events := by
      unfold CPoller.scanned
      dsimp only
      split_ifs <;> rfl
    refine ⟨pFd, ?_, hevents.trans (by rw [hsame])⟩
    unfold entry
    rw [scanned_channel_index]
    exact hentry

/-- A channel is not ready if `::poll` counts nothing. -/
theorem Answers.not_ready {nNumEvents : ℤ} (h : p.Answers nNumEvents) (hnone : nNumEvents ≤ 0)
    (c : ι) : ¬ p.Ready c := by
  rintro ⟨-, hrevents⟩
  have hzero : p.pollFds.countP (fun pFd => decide (pFd.revents ≠ 0)) = 0 := by
    have hcount := h.count
    omega
  rw [List.countP_eq_zero] at hzero
  unfold entryREvents at hrevents
  rcases hentry : p.entry c with _ | pFd
  · rw [hentry] at hrevents
    exact hrevents rfl
  · rw [hentry] at hrevents
    have hat := hzero pFd (List.mem_of_getElem? hentry)
    exact hat (by simpa using hrevents)

/-- **`Poll`** reports the ready channels in the order of their entries, and has set the returned
events of each of them. -/
theorem EntryInv.poll_reports (h : p.EntryInv) {nNumEvents : ℤ} {revents : ℕ → BitVec 16}
    (hanswers : (p.report revents).Answers nNumEvents) :
    ∃ p' active, p.poll nNumEvents revents [] = .ok (p', active) ∧ p'.EntryInv ∧
      (∀ c, c ∈ active ↔ (p.report revents).Ready c) ∧
      (active.Pairwise fun c d => (p.channel c).index < (p.channel d).index) ∧
      ∀ c ∈ active, (p'.channel c).revents = ((p.report revents).entryREvents c).signExtend 32 := by
  by_cases hpos : 0 < nNumEvents
  · obtain ⟨active, hok, hs, -⟩ := h.index.poll_eq hanswers hpos []
    have hmem : ∀ c, c ∈ active ↔ (p.report revents).Ready c := by
      intro c
      rw [hs.mem_iff]
      exact and_iff_left_of_imp fun hready => h.index.index_lt hready.1
    refine ⟨_, active, hok, (h.report revents).scanned _, hmem, hs.ordered, fun c hc => ?_⟩
    have hboth := (hs.mem_iff c).mp hc
    unfold CPoller.scanned
    dsimp only
    rw [if_pos hboth]
  · refine ⟨p.report revents, [], ?_, h.report revents, fun c => ?_, List.Pairwise.nil,
      fun c hc => absurd hc List.not_mem_nil⟩
    · unfold poll
      rw [if_neg hpos]
    · refine ⟨fun hc => absurd hc List.not_mem_nil, fun hready => ?_⟩
      exact absurd hready (hanswers.not_ready (not_lt.mp hpos) c)

end CPoller

/-! ## The loop thread in its callbacks -/

open CPoller

/-- The poller of a loop, and the callbacks that its channels have called. -/
structure Dispatcher (ι : Type) where
  /-- `m_unpPoller`, with the channels. -/
  poller : CPoller ι
  /-- The callbacks called so far. -/
  calls : List (ι × Handler)

namespace Dispatcher

variable {ι : Type} [DecidableEq ι]

/-- A new loop over channels with the given descriptors. -/
def new (fdOf : ι → ℤ) : Dispatcher ι where
  poller := .new fdOf
  calls := []

/-- Calls on the poller, one after the other. -/
def makeCalls : List (Call ι) → CPoller ι → Except Fault (CPoller ι)
  | [], p => .ok p
  | call :: rest, p => do
      let p ← call.run p
      makeCalls rest p

section handling

/-! What a callback does on the poller may depend on all callbacks called so far, its own call the
last. -/

variable (user : List (ι × Handler) → List (Call ι))

/-- A callback of the channel `c`. -/
def callback (s : Dispatcher ι) (c : ι) (handler : Handler) : Except Fault (Dispatcher ι) := do
  let calls := s.calls ++ [(c, handler)]
  let poller ← makeCalls (user calls) s.poller
  return { poller := poller, calls := calls }

/-- `m_nREvents` of the channel `c`. -/
def revents (s : Dispatcher ι) (c : ι) : Events := (s.poller.channel c).revents

/-- A callback of `HandleEvent`, with the condition that it stands under. -/
def callIf (s : Dispatcher ι) (asked : Prop) [Decidable asked] (c : ι) (handler : Handler) :
    Except Fault (Dispatcher ι) :=
  if asked then s.callback user c handler else .ok s

/-- `HandleEvent`. As in `handlersOf`, a callback that is not set counts as one that does nothing.
Source: `net/CChannel.cpp`, `CChannel::HandleEvent` -/
def handleEvent (s : Dispatcher ι) (c : ι) : Except Fault (Dispatcher ι) := do
  let s ← s.callIf user (s.revents c &&& pollHup ≠ 0 ∧ ¬ s.revents c &&& pollIn ≠ 0) c .close
  let s ← s.callIf user (s.revents c &&& (pollErr ||| pollNval) ≠ 0) c .error
  let s ← s.callIf user (s.revents c &&& (pollIn ||| pollPri ||| pollRdHup) ≠ 0) c .read
  s.callIf user (s.revents c &&& pollOut ≠ 0) c .write

/-- The loop over `m_vActiveChannels`.
Source: `net/CEventLoop.cpp`, `CEventLoop::StartLoop` -/
def handleEvents (s : Dispatcher ι) : List ι → Except Fault (Dispatcher ι)
  | [] => return s
  | c :: rest => do
      let s ← s.handleEvent user c
      handleEvents s rest

/-- `Poll`, of which `::poll` has returned `nNumEvents` and set the given returned events, and the
handlers.
Source: `net/CEventLoop.cpp`, `CEventLoop::StartLoop` -/
def iterate (s : Dispatcher ι) (nNumEvents : ℤ) (revents : ℕ → BitVec 16) :
    Except Fault (Dispatcher ι) := do
  let (poller, active) ← s.poller.poll nNumEvents revents []
  handleEvents user { s with poller := poller } active

/-- What the loop thread does: a call on the poller outside the handlers, such as that of a pending
functor, or the poll and the handlers of an iteration. -/
inductive Turn (ι : Type)
  | call (made : Call ι)
  | iterate (nNumEvents : ℤ) (revents : ℕ → BitVec 16)

/-- The loop thread after the turn. -/
def Turn.run (s : Dispatcher ι) : Turn ι → Except Fault (Dispatcher ι)
  | .call made => do
      let poller ← made.run s.poller
      return { s with poller := poller }
  | .iterate nNumEvents revents => s.iterate user nNumEvents revents

/-- `::poll` has answered as it may. -/
def Turn.Answered (s : Dispatcher ι) : Turn ι → Prop
  | .call _ => True
  | .iterate nNumEvents revents => (s.poller.report revents).Answers nNumEvents

/-- A turn that returns. -/
def Step (s : Dispatcher ι) (turn : Turn ι) (s' : Dispatcher ι) : Prop :=
  turn.Answered s ∧ turn.run user s = .ok s'

/-! ## A pass -/

/-- `s'` is `s` after the given callbacks: the returned events are the same. -/
structure Called (s : Dispatcher ι) (calls : List (ι × Handler)) (s' : Dispatcher ι) : Prop where
  /-- The callbacks called. -/
  calls_eq : s'.calls = s.calls ++ calls
  /-- The entries are in step with the channels. -/
  entries : s'.poller.EntryInv
  /-- `m_nREvents` of every channel. -/
  revents_eq : ∀ d, s'.revents d = s.revents d

variable {user} {s s' s'' : Dispatcher ι} {c : ι} {calls calls' : List (ι × Handler)}

/-- No callback. -/
theorem called_nil (h : s.poller.EntryInv) : Called s [] s where
  calls_eq := (List.append_nil _).symm
  entries := h
  revents_eq _ := rfl

/-- Callbacks after callbacks. -/
theorem Called.append (h : Called s calls s') (h' : Called s' calls' s'') :
    Called s (calls ++ calls') s'' where
  calls_eq := by rw [h'.calls_eq, h.calls_eq, List.append_assoc]
  entries := h'.entries
  revents_eq d := (h'.revents_eq d).trans (h.revents_eq d)

/-- Calls on the poller keep its returned events. -/
theorem makeCalls_revents {made : List (Call ι)} {p p' : CPoller ι} (h : p.EntryInv)
    (hok : makeCalls made p = .ok p') :
    p'.EntryInv ∧ ∀ d, (p'.channel d).revents = (p.channel d).revents := by
  induction made generalizing p with
  | nil =>
      cases Except.ok.inj hok
      exact ⟨h, fun d => rfl⟩
  | cons call rest ih =>
      obtain ⟨q, hcall, hok⟩ := bind_eq_ok_iff.mp hok
      have hsame := Call.revents_of_step h.index hcall
      obtain ⟨h', hsame'⟩ := ih (h.call hcall) hok
      exact ⟨h', fun d => (hsame' d).trans (hsame d)⟩

/-- A callback, if its condition holds. -/
theorem called_callIf (h : s.poller.EntryInv) {asked : Prop} [Decidable asked] {handler : Handler}
    (hok : s.callIf user asked c handler = .ok s') :
    Called s (if asked then [(c, handler)] else []) s' := by
  unfold callIf at hok
  by_cases hasked : asked
  · rw [if_pos hasked] at hok ⊢
    obtain ⟨poller, hmade, hok⟩ := bind_eq_ok_iff.mp hok
    obtain ⟨h', hsame⟩ := makeCalls_revents h hmade
    cases Except.ok.inj hok
    exact ⟨rfl, h', hsame⟩
  · rw [if_neg hasked] at hok ⊢
    cases Except.ok.inj hok
    exact called_nil h

/-- **`HandleEvent` calls what its returned events ask for**: they are read again before each
callback, and are still the same. -/
theorem handleEvent_calls (h : s.poller.EntryInv) (hok : s.handleEvent user c = .ok s') :
    Called s ((handlersOf (s.revents c)).map fun handler => (c, handler)) s' := by
  obtain ⟨s₁, hclose, hok⟩ := bind_eq_ok_iff.mp hok
  obtain ⟨s₂, herror, hok⟩ := bind_eq_ok_iff.mp hok
  obtain ⟨s₃, hread, hwrite⟩ := bind_eq_ok_iff.mp hok
  have h₁ := called_callIf h hclose
  have h₂ := h₁.append (called_callIf h₁.entries herror)
  have h₃ := h₂.append (called_callIf h₂.entries hread)
  have h₄ := h₃.append (called_callIf h₃.entries hwrite)
  rw [h₃.revents_eq, h₂.revents_eq, h₁.revents_eq] at h₄
  simp only [handlersOf, List.map_append, apply_ite (List.map _), List.map_cons, List.map_nil]
  exact h₄

/-- **A pass calls what was reported**, whatever the callbacks do to the interest and the
registration of the channels that are still to come. -/
theorem handleEvents_calls {active : List ι} (h : s.poller.EntryInv)
    (hok : s.handleEvents user active = .ok s') :
    Called s (active.flatMap fun c => (handlersOf (s.revents c)).map fun handler => (c, handler))
      s' := by
  induction active generalizing s with
  | nil =>
      cases Except.ok.inj hok
      exact called_nil h
  | cons c rest ih =>
      obtain ⟨s₁, hfirst, hrest⟩ := bind_eq_ok_iff.mp hok
      have h₁ := handleEvent_calls h hfirst
      have h₂ := ih h₁.entries hrest
      simp only [h₁.revents_eq] at h₂
      rw [List.flatMap_cons]
      exact h₁.append h₂

/-! ## Runs -/

/-- The callbacks that the entry of `c` asks for, when `::poll` has set the returned events. -/
def asked (p : CPoller ι) (revents : ℕ → BitVec 16) (c : ι) : List (ι × Handler) :=
  (handlersOf (((p.report revents).entryREvents c).signExtend 32)).map fun handler => (c, handler)

/-- **One iteration** that returns: the callbacks that the entries of the ready channels ask for. -/
theorem iterate_calls {nNumEvents : ℤ} {revents : ℕ → BitVec 16} (h : s.poller.EntryInv)
    (hanswers : (s.poller.report revents).Answers nNumEvents)
    (hok : s.iterate user nNumEvents revents = .ok s') :
    s'.poller.EntryInv ∧ ∃ active : List ι,
      (∀ c, c ∈ active ↔ (s.poller.report revents).Ready c) ∧
      (active.Pairwise fun c d => (s.poller.channel c).index < (s.poller.channel d).index) ∧
      s'.calls = s.calls ++ active.flatMap (asked s.poller revents) := by
  obtain ⟨p, active, hpoll, hp, hmem, hordered, hrevents⟩ := h.poll_reports hanswers
  unfold iterate at hok
  rw [hpoll, ok_bind] at hok
  have hcalled := handleEvents_calls (s := { s with poller := p }) hp hok
  refine ⟨hcalled.entries, active, hmem, hordered, ?_⟩
  rw [hcalled.calls_eq]
  congr 1
  refine List.flatMap_congr fun c hc => ?_
  unfold asked
  rw [← hrevents c hc]
  rfl

/-- A turn keeps the entries in step with the channels. -/
theorem Step.entries {turn : Turn ι} (h : s.poller.EntryInv) (hst : Step user s turn s') :
    s'.poller.EntryInv := by
  cases turn with
  | call made =>
      obtain ⟨poller, hcall, hok⟩ := bind_eq_ok_iff.mp hst.2
      cases Except.ok.inj hok
      exact h.call hcall
  | iterate nNumEvents revents => exact (iterate_calls h hst.1 hst.2).1

/-- The entries are in step with the channels in every run. -/
theorem entries_run {fdOf : ι → ℤ} (hinj : Function.Injective fdOf) (h0 : ∀ c, 0 ≤ fdOf c)
    {turns : List (Turn ι)} (hrun : Run (Step user) (new fdOf) turns s) : s.poller.EntryInv :=
  hrun.invariant (I := fun s => s.poller.EntryInv) (fun _ _ _ h hst => Step.entries h hst)
    (entryInv_new hinj h0)

/-- **An iteration calls what the entries ask for, whatever the callbacks do.** In every run of the
loop thread, with callbacks that may do anything on the poller that returns: if an iteration
returns, it has called, for the channels whose entries have returned events and no others, in the
order of the entries, the callbacks that these events ask for; also of a channel that an earlier
callback of the iteration has disabled or removed. -/
theorem dispatch_run {fdOf : ι → ℤ} (hinj : Function.Injective fdOf) (h0 : ∀ c, 0 ≤ fdOf c)
    {turns : List (Turn ι)} (hrun : Run (Step user) (new fdOf) turns s) {nNumEvents : ℤ}
    {revents : ℕ → BitVec 16} (hst : Step user s (.iterate nNumEvents revents) s') :
    ∃ active : List ι, (∀ c, c ∈ active ↔ (s.poller.report revents).Ready c) ∧
      (active.Pairwise fun c d => (s.poller.channel c).index < (s.poller.channel d).index) ∧
      s'.calls = s.calls ++ active.flatMap (asked s.poller revents) :=
  (iterate_calls (entries_run hinj h0 hrun) hst.1 hst.2).2

/-- `::poll` returns the requested events, and those that it may return without a request. -/
def Requests (p : CPoller ι) (revents : ℕ → BitVec 16) : Prop :=
  ∀ i pFd, p.pollFds[i]? = some pFd → revents i &&& ~~~(pFd.events ||| unrequested) = 0#16

/-- The interest that a callback needs. -/
def Interested (nEvents : Events) : Handler → Prop
  | .read => nEvents &&& (pollIn ||| pollPri ||| pollRdHup) ≠ 0#32
  | .write => isWriting nEvents = true
  | .close | .error => True

/-- A ready channel is watched, and has the interest for what is asked of it. -/
theorem interested_of_asked {p : CPoller ι} {revents : ℕ → BitVec 16} {nNumEvents : ℤ}
    (h : p.EntryInv) (hanswers : (p.report revents).Answers nNumEvents)
    (hrequests : Requests p revents) {handler : Handler} (hready : (p.report revents).Ready c)
    (hasked : (c, handler) ∈ asked p revents c) :
    p.watch c = .watched ∧ Interested (p.channel c).events handler := by
  have hreg : p.Registered c := hready.1
  obtain ⟨pFd, hentry, hevents⟩ := h.events c hreg
  have hreport : (p.report revents).entry c =
      some { pFd with revents := revents (p.channel c).index.toNat } := by
    rw [report_entry, hentry]
    rfl
  have hreturned : (p.report revents).entryREvents c = revents (p.channel c).index.toNat := by
    unfold entryREvents
    rw [hreport]
    rfl
  have hrequest := hrequests _ pFd hentry
  rw [hevents, ← hreturned] at hrequest
  constructor
  · have hfd : ¬ pFd.fd < 0 := by
      intro hneg
      have hnone := hanswers.muted _ (List.mem_of_getElem? hreport) hneg
      exact hready.2 (hreturned.trans hnone)
    obtain ⟨pFd', hentry', hcarries⟩ := h.index.entry_carries c hreg
    obtain rfl := Option.some.inj (hentry.symm.trans hentry')
    rw [watch_of_entry hreg hentry, if_pos (hcarries.fd_eq (h.index.fd_nonneg c) hfd).symm]
  · obtain ⟨handler', hmem, heq⟩ := List.mem_map.mp hasked
    obtain ⟨-, rfl⟩ := Prod.mk.inj heq
    cases handler' with
    | close | error => exact trivial
    | read =>
        have hbits : ((p.report revents).entryREvents c).signExtend 32 &&&
            (pollIn ||| pollPri ||| pollRdHup) ≠ 0 := by
          simpa [handlersOf] using hmem
        exact requested_of_returned hrequest (by decide) (by decide) hbits
    | write =>
        have hbits : ((p.report revents).entryREvents c).signExtend 32 &&& pollOut ≠ 0 := by
          simpa [handlersOf] using hmem
        have hevents := requested_of_returned hrequest (by decide) (by decide) hbits
        simpa [Interested, isWriting, writeEvent] using hevents

/-- **No callback without interest.** In every run of the loop thread, in an iteration that returns,
with a kernel that returns no events but the requested ones, `POLLERR`, `POLLHUP` and `POLLNVAL`:
every channel whose callback is called had an unmuted entry at the time of the poll; its read
callback is called only if it was interested in reading then, and its write callback only if in
writing. -/
theorem interest_run {fdOf : ι → ℤ} (hinj : Function.Injective fdOf) (h0 : ∀ c, 0 ≤ fdOf c)
    {turns : List (Turn ι)} (hrun : Run (Step user) (new fdOf) turns s) {nNumEvents : ℤ}
    {revents : ℕ → BitVec 16} (hst : Step user s (.iterate nNumEvents revents) s')
    (hrequests : Requests s.poller revents) :
    ∃ called, s'.calls = s.calls ++ called ∧ ∀ c handler, (c, handler) ∈ called →
      s.poller.watch c = .watched ∧ Interested (s.poller.channel c).events handler := by
  have h := entries_run hinj h0 hrun
  obtain ⟨-, active, hmem, -, hcalls⟩ := iterate_calls h hst.1 hst.2
  refine ⟨_, hcalls, fun c handler hcalled => ?_⟩
  obtain ⟨d, hd, hasked⟩ := List.mem_flatMap.mp hcalled
  obtain ⟨handler', -, heq⟩ := List.mem_map.mp hasked
  obtain ⟨rfl, rfl⟩ := Prod.mk.inj heq
  exact interested_of_asked h hst.1 hrequests ((hmem d).mp hd) hasked

end handling

/-- A user whose first callback disables the second of two channels. -/
def disablesSecond (calls : List (Fin 2 × Handler)) : List (Call (Fin 2)) :=
  if calls.length = 1 then [.update 1 noneEvent] else []

/-- Two channels that are read. -/
def bothReading : List (Turn (Fin 2)) := [.call (.update 0 readEvent), .call (.update 1 readEvent)]

/-- Two channels that are read, and are both readable. -/
theorem run_bothReading : ∃ s s' : Dispatcher (Fin 2),
    Run (Step disablesSecond) (new fun c => 4 + c.val) bothReading s ∧
    Step disablesSecond s (.iterate 2 fun _ => 1) s' ∧
    Requests s.poller (fun _ => 1) ∧ s'.calls = [(0, .read), (1, .read)] := by
  refine ⟨_, _, Run.cons ⟨trivial, rfl⟩ (Run.single ⟨trivial, rfl⟩),
    ⟨⟨by decide, by decide, by decide⟩, rfl⟩, ?_, rfl⟩
  intro i pFd hat
  rcases i with _ | _ | i
  · cases hat
    decide
  · cases hat
    decide
  · cases hat

/-- The descriptors of the two channels are distinct. -/
theorem injective_two : Function.Injective fun c : Fin 2 => 4 + (c.val : ℤ) := by decide

/-- The theorem on these channels: the second one's callback is called, though the first one's has
disabled it. -/
theorem dispatch_run_bothReading : ∃ s s' : Dispatcher (Fin 2), ∃ active : List (Fin 2),
    Run (Step disablesSecond) (new fun c => 4 + c.val) bothReading s ∧
    (∀ c, c ∈ active ↔ (s.poller.report fun _ => 1).Ready c) ∧
    s'.calls = s.calls ++ active.flatMap (asked s.poller fun _ => 1) ∧
    s'.calls = [(0, .read), (1, .read)] := by
  obtain ⟨s, s', hrun, hst, -, hcalls⟩ := run_bothReading
  obtain ⟨active, hmem, -, hasked⟩ := dispatch_run injective_two (by decide) hrun hst
  exact ⟨s, s', active, hrun, hmem, hasked, hcalls⟩

/-- The theorem on these channels. -/
theorem interest_run_bothReading : ∃ s s' : Dispatcher (Fin 2), ∃ called,
    Run (Step disablesSecond) (new fun c => 4 + c.val) bothReading s ∧
    s'.calls = s.calls ++ called ∧ ∀ c handler, (c, handler) ∈ called →
      s.poller.watch c = .watched ∧ Interested (s.poller.channel c).events handler := by
  obtain ⟨s, s', hrun, hst, hrequests, -⟩ := run_bothReading
  obtain ⟨called, hcalls, hinterested⟩ :=
    interest_run injective_two (by decide) hrun hst hrequests
  exact ⟨s, s', called, hrun, hcalls, hinterested⟩

end Dispatcher

end Neconet
