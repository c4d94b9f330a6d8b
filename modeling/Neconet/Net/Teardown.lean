import Neconet.Net.ReleaseOrder

/-!
# What the server leaves in the poller

The destructor of the server releases the connection table and destroys the acceptor, and does not
mention the poller. A connection is removed from the poller by `ConnectDestroyed`, which the
destructor does not call, and the channel of the acceptor is never removed at all. So the destructor
leaves entries of destroyed channels behind exactly if the server has begun to listen; before that,
nothing of it is registered.

* `NoDangling`, `NoClosedWatched`: what the poller may contain.
* `TeardownInv`: what is registered before and after `StartListen`.
* `teardown_iff`: when the destructor leaves nothing behind.
* `not_teardown`: a server with one connection.
-/

namespace Neconet

set_option linter.unusedSectionVars false

open Transition

namespace PolledServer

variable {T : Type} [DecidableEq T] {s s' : PolledServer T} {fds : OwnFds}

/-- No entry of the poller refers to a channel that has been destroyed. -/
def NoDangling (s : PolledServer T) : Prop :=
  ∀ nFd c, s.poller.channelsMap.lookup nFd = some c → s.ChannelExists c

/-- No descriptor that is watched has been closed. -/
def NoClosedWatched (s : PolledServer T) : Prop :=
  ∀ pFd ∈ s.poller.pollFds, 0 ≤ pFd.fd → s.IsOpen pFd.fd

/-- Nothing of the server has been registered, and no connection has been accepted. -/
structure Idle (fds : OwnFds) (s : PolledServer T) : Prop where
  /-- The poller has the two entries of the loop. -/
  poller_eq : s.poller = fds.loopPoller
  /-- No connection has been accepted. -/
  created_eq : s.created = 0
  /-- No functor holds a connection. -/
  pending : ∀ i, .connectDestroyed i ∉ s.loop.pendingFunctors
  /-- No functor of the batch does. -/
  functors : ∀ i, .connectDestroyed i ∉ s.loop.functors
  /-- No connection is being destroyed. -/
  destroying_eq : s.destroying = none
  /-- Only the timers have been reported. -/
  active : ∀ e ∈ s.active, e.1 = .timer
  /-- Only the timers are being handled. -/
  current : ∀ e ∈ s.current, e.chan = .timer

/-- From `StartListen` on, the acceptor is registered; before it, nothing is. -/
structure TeardownInv (fds : OwnFds) (s : PolledServer T) : Prop where
  /-- The acceptor is registered. -/
  listening : s.listening = true → ∃ nFd, s.poller.channelsMap.lookup nFd = some .acceptor
  /-- Nothing is. -/
  idle : s.listening = false → s.Idle fds

/-- A new server is idle. -/
theorem teardownInv_new (fds : OwnFds) (sName : List Char) :
    TeardownInv fds (new fds sName : PolledServer T) where
  listening h := by cases h
  idle _ :=
    { poller_eq := rfl
      created_eq := rfl
      pending := fun i hi => by cases hi
      functors := fun i hi => by cases hi
      destroying_eq := rfl
      active := fun e he => by cases he
      current := fun e he => by cases he }

/-- No connection exists while the server is idle. -/
theorem Idle.not_alive (h : s.Idle fds) {i : ℕ} : ¬ s.Alive i := by
  intro hi
  have hlt := hi.1
  rw [h.created_eq] at hlt
  exact Nat.not_lt_zero i hlt

/-- A call of a connection leaves the entry of the acceptor alone. -/
theorem lookup_of_touches {p p' : CPoller Chan} {i : ℕ} {nFd : ℤ} {c : Chan}
    (h : ConnectionOver.Touches (CPoller.ops (Chan.conn i)) p p')
    (hc : p.channelsMap.lookup nFd = some c) :
    p'.channelsMap.lookup nFd = some c := by
  rcases h with rfl | ⟨op, hop⟩
  · exact hc
  · exact (CPoller.changeInterest_ok hop).lookup_of_lookup hc

/-- What holds of all entries that are reported holds of the timers only. -/
theorem Idle.chan_eq_timer (h : s.Idle fds) {c : Chan} {revents : Events} (hc : c ≠ .wakeup)
    (hreports : s.Reports c revents) : c = .timer := by
  obtain ⟨pFd, -, -, hlookup, -⟩ := hreports
  rw [h.poller_eq] at hlookup
  rcases fds.lookup_loopPoller hlookup with ⟨hwakeup, -⟩ | ⟨htimer, -⟩
  · exact absurd hwakeup hc
  · exact htimer

/-- A step of the loop that is not about the server leaves the server idle. -/
theorem Idle.loopStep {a : CEventLoop.Action ServerCall T} (h : s.Idle fds) (hforeign : s.Foreign a) :
    (s.loopStep a).Idle fds := by
  by_cases hswap : a = .swap
  · subst hswap
    exact { h with
      pending := fun i hi => by cases hi
      functors := h.pending }
  · obtain ⟨hfunctors, hpending, -⟩ := loopStep_functors hforeign hswap
    exact { h with
      pending := fun i hi => h.pending i ((hpending i).mp hi)
      functors := fun i hi => h.functors i (hfunctors ▸ hi) }

/-- A step that leaves the poller and the acceptor alone. -/
theorem TeardownInv.frame (h : TeardownInv fds s) (hlistening : s'.listening = s.listening)
    (hpoller : s'.poller = s.poller) (hidle : s.Idle fds → s'.Idle fds) : TeardownInv fds s' where
  listening hs' := by
    rw [hpoller]
    exact h.listening (hlistening ▸ hs')
  idle hs' := hidle (h.idle (hlistening ▸ hs'))

/-- A step that cannot be taken while the server is idle, and keeps the entry of the acceptor. -/
theorem TeardownInv.of_not_idle (h : TeardownInv fds s) (hlistening : s'.listening = s.listening)
    (hidle : ¬ s.Idle fds)
    (hkept : ∀ nFd, s.poller.channelsMap.lookup nFd = some .acceptor →
      s'.poller.channelsMap.lookup nFd = some .acceptor) : TeardownInv fds s' where
  listening hs' := by
    obtain ⟨nFd, hlookup⟩ := h.listening (hlistening ▸ hs')
    exact ⟨nFd, hkept nFd hlookup⟩
  idle hs' := absurd (h.idle (hlistening ▸ hs')) hidle

/-- The invariant is kept by everything that steps are made of. -/
theorem kept_teardownInv (fds : OwnFds) : Kept (T := T) (TeardownInv fds) where
  fault s e h := by
    refine h.frame rfl rfl ?_
    intro hs
    exact { hs with }
  loop s a h hen hforeign := by
    refine h.frame rfl rfl ?_
    intro hs
    exact hs.loopStep hforeign
  poll s readable active h hen hactive := by
    refine h.frame rfl rfl ?_
    intro hs
    exact { hs with
      active := fun e he => hs.chan_eq_timer (hactive e he).1 (hactive e he).2 }
  handleEvent s c revents active h hen hactive := by
    refine h.frame rfl rfl ?_
    intro hs
    exact { hs with
      active := fun e he => hs.active e (by simp [hactive, show e ∈ active from he])
      current := fun e he => by
        cases he
        exact hs.active (c, revents) (by simp [hactive]) }
  callback s c revents hd rest h hcurrent := by
    refine h.frame rfl rfl ?_
    intro hs
    exact { hs with
      current := fun e he => by
        cases he
        exact hs.current ⟨c, revents, hd :: rest⟩ hcurrent }
  handled s h := by
    refine h.frame rfl rfl ?_
    intro hs
    exact { hs with
      current := fun e he => by cases he }
  store s i conn h hi ht := by
    refine h.of_not_idle rfl ?_ ?_
    · intro hs
      exact hs.not_alive hi
    · intro nFd hlookup
      exact lookup_of_touches ht hlookup
  removeConnection s i s' h hen hi hok := by
    obtain ⟨-, rfl⟩ := removeConnection_ok hok
    refine h.of_not_idle rfl ?_ ?_
    · intro hs
      exact hs.not_alive hi
    · intro nFd hlookup
      exact hlookup
  newConnection s nFd s' h hen hcurrent hopen hok := by
    obtain ⟨conn, hup, rfl⟩ := newConnection_ok hok
    refine h.of_not_idle rfl ?_ ?_
    · intro hs
      obtain ⟨e, he, hacceptor⟩ := hcurrent
      have htimer := hs.current e he
      rw [hacceptor] at htimer
      cases htimer
    · intro nFd' hlookup
      exact hup.lookup_of_lookup hlookup
  startListen s s' h hok := by
    obtain ⟨poller, hpoller, hok⟩ := bind_eq_ok_iff.mp hok
    cases Except.ok.inj hok
    refine ⟨fun _ => ?_, fun hidle => by cases hidle⟩
    exact ⟨_, (CPoller.changeInterest_ok hpoller).lookup_self⟩
  callFunctor s f fs h hen hfunctors hf := by
    refine h.frame rfl rfl ?_
    intro hs
    exact { hs with
      functors := fun i hi => hs.functors i (List.mem_of_mem_tail hi) }
  connectDestroyed s i fs conn callback h hen hfunctors hok := by
    refine h.of_not_idle rfl ?_ ?_
    · intro hs
      exact hs.functors i (by simp [hfunctors])
    · intro nFd hlookup
      exact lookup_of_touches (ConnectionOver.touches_connectDestroyed hok) hlookup
  removeChannel s i conn h hi hok := by
    have herases := CPoller.removeChannel_ok (removeChannel_poller hok)
    refine h.of_not_idle rfl ?_ ?_
    · intro hs
      rw [hs.destroying_eq] at hi
      cases hi
    · intro nFd hlookup
      refine herases.lookup_iff.mpr ⟨?_, hlookup⟩
      rintro rfl
      rw [herases.lookup_eq] at hlookup
      cases hlookup
  setUsers s users h := by
    refine h.frame rfl rfl ?_
    intro hs
    exact { hs with }

/-- What the destructor of the server has done when it returns. -/
theorem destroyServer_ok (hok : s.destroyServer = .ok s') : s' = { s with
    server := { s.server with connectionMap := ∅ }, serverDestroyed := true } := by
  obtain ⟨-, -, hok⟩ := bind_eq_ok_iff.mp hok
  exact (Except.ok.inj hok).symm

/-- **What the destructor of the server leaves in the poller.** In every reachable state in which
the destructor may be called: in the state in which it returns, no entry of the poller refers to a
channel that has been destroyed and no watched descriptor has been closed, if and only if the server
had not begun to listen. What the loop does later is not the subject: a `StartListen` that is still
among the functors, with a raw pointer to the acceptor, is a use after free of its own. -/
theorem teardown_iff {sName : List Char} {as : List (Action T)}
    (hrun : Run Step (new fds sName) as s) (hdestroy : s.destroyServer = .ok s') :
    s'.NoDangling ∧ s'.NoClosedWatched ↔ s.listening = false := by
  have hinv := hrun.invariant (kept_teardownInv fds).step (teardownInv_new fds sName)
  rw [destroyServer_ok hdestroy]
  constructor
  · rintro ⟨hdangling, -⟩
    by_contra hne
    -- the acceptor is registered, and no longer exists
    obtain ⟨nFd, hlookup⟩ := hinv.listening (by simpa using hne)
    have hexists := hdangling nFd .acceptor hlookup
    cases hexists
  · intro hidle
    have hpoller := (hinv.idle hidle).poller_eq
    constructor
    · intro nFd c hlookup
      have hlookup' : fds.loopPoller.channelsMap.lookup nFd = some c := hpoller ▸ hlookup
      rcases fds.lookup_loopPoller hlookup' with ⟨rfl, -⟩ | ⟨rfl, -⟩ <;> trivial
    · intro pFd hmem _
      have hfd : ∀ c, (s.poller.channel c).fd = fds.fdOf c := by
        intro c
        rw [hpoller]
        exact fds.loopPoller_channel_fd c
      have hmem' : pFd ∈ fds.loopPoller.pollFds := hpoller ▸ hmem
      rcases fds.fd_of_mem_loopPoller hmem' with htimer | hwakeup
      · exact ⟨.timer, trivial, (hfd .timer).trans htimer.symm⟩
      · exact ⟨.wakeup, trivial, (hfd .wakeup).trans hwakeup.symm⟩

/-- The theorem on a server that has not been started, on a loop that runs. -/
theorem teardown_not_started : ∃ s s' : PolledServer Unit,
    Run Step (new someFds ['s']) [.loop .startLoop, .loop .testQuit, .poll false [(.timer, pollIn)]] s ∧
      s.destroyServer = .ok s' ∧ s'.NoDangling ∧ s'.NoClosedWatched := by
  have hrun : ∃ s s' : PolledServer Unit, Run Step (new someFds ['s'])
      [.loop .startLoop, .loop .testQuit, .poll false [(.timer, pollIn)]] s ∧
      s.destroyServer = .ok s' ∧ s.listening = false := ⟨_, _, run_of_exec rfl, rfl, rfl⟩
  obtain ⟨s, s', hrun, hdestroy, hlistening⟩ := hrun
  exact ⟨s, s', hrun, hdestroy, (teardown_iff hrun hdestroy).mpr hlistening⟩

/-- A server that listens and has one connection, to which nobody else holds a shared pointer, is
destroyed: the poller still has the entries of the acceptor and of the connection, which do not
exist any more, and watches their descriptors, which are closed. -/
theorem not_teardown : ∃ s s' : PolledServer Unit,
    Run Step (new someFds ['s']) acceptOne s ∧ s.destroyServer = .ok s' ∧
    (s'.poller.channelsMap.lookup 5 = some .acceptor ∧ ¬ s'.ChannelExists .acceptor) ∧
    (s'.poller.channelsMap.lookup 6 = some (.conn 0) ∧ ¬ s'.ChannelExists (.conn 0)) ∧
    ((∃ pFd ∈ s'.poller.pollFds, pFd.fd = 5) ∧ ¬ s'.IsOpen 5) ∧
    ((∃ pFd ∈ s'.poller.pollFds, pFd.fd = 6) ∧ ¬ s'.IsOpen 6) ∧
    ¬ s'.NoDangling ∧ ¬ s'.NoClosedWatched := by
  have hrun : ∃ s s' : PolledServer Unit,
      Run Step (new someFds ['s']) acceptOne s ∧ s.destroyServer = .ok s' ∧
      (s'.poller.channelsMap.lookup 5 = some .acceptor ∧ ¬ s'.ChannelExists .acceptor) ∧
      (s'.poller.channelsMap.lookup 6 = some (.conn 0) ∧ ¬ s'.ChannelExists (.conn 0)) ∧
      ((∃ pFd ∈ s'.poller.pollFds, pFd.fd = 5) ∧ ¬ s'.IsOpen 5) ∧
      ((∃ pFd ∈ s'.poller.pollFds, pFd.fd = 6) ∧ ¬ s'.IsOpen 6) :=
    ⟨_, _, run_of_exec rfl, rfl, ⟨rfl, by decide⟩, ⟨rfl, by decide⟩, ⟨by decide, by decide⟩,
      by decide, by decide⟩
  obtain ⟨s, s', hrun, hdestroy, hacceptor, hconn, hlisten, hwatched⟩ := hrun
  refine ⟨s, s', hrun, hdestroy, hacceptor, hconn, hlisten, hwatched, fun h => ?_, fun h => ?_⟩
  · exact hacceptor.2 (h 5 .acceptor hacceptor.1)
  · obtain ⟨⟨pFd, hmem, hfd⟩, hclosed⟩ := hlisten
    have hopen := h pFd hmem (by rw [hfd]; decide)
    exact hclosed (hfd ▸ hopen)

end PolledServer

end Neconet
