import Neconet.Net.PolledServer
import Neconet.Net.ServerTable

/-!
# Connections are released after they are unregistered

The entry of a connection's channel in the poller, the connection itself and its descriptor end at
three different moments. What orders them is who holds a shared pointer: as long as the channel is
registered, the connection is in the table, or bound in a functor of `ConnectDestroyed` that has not
removed the channel yet. Through the handlers of the active channels, a reported connection stays in
the table or in a functor that is not called before they are over. So nothing registered is ever
destroyed, and a descriptor that the kernel gives anew has no entry.

* `PollerInv`: the entries of the poller, as far as connections are concerned.
* `ReleaseInv`: who holds the registered and the reported connections.
* `releaseOrder_run`: what follows for every run.
-/

namespace Neconet

set_option linter.unusedSectionVars false

open Transition

namespace PolledServer

/-! ## The poller -/

/-- The entries of the poller after `n` connections have been accepted: those of connections belong
to connections with the property. -/
structure PollerInv (p : CPoller Chan) (n : ℕ) (Held : ℕ → Prop) : Prop where
  /-- A channel is registered under its descriptor. -/
  fd_eq : ∀ nFd c, p.channelsMap.lookup nFd = some c → (p.channel c).fd = nFd
  /-- The channels of accepted connections have been registered. -/
  index_nonneg : ∀ i < n, 0 ≤ (p.channel (.conn i)).index
  /-- Registered connections have the property. -/
  held : ∀ nFd i, p.channelsMap.lookup nFd = some (.conn i) → Held i

namespace PollerInv

variable {p p' : CPoller Chan} {n i : ℕ} {Held Held' : ℕ → Prop}

/-- A weaker property. -/
theorem mono (h : PollerInv p n Held) (himp : ∀ j, Held j → Held' j) : PollerInv p n Held' :=
  ⟨h.fd_eq, h.index_nonneg, fun nFd j hj => himp j (h.held nFd j hj)⟩

/-- A change of interest of a channel that is not that of a new connection. -/
theorem updates {c : Chan} (h : PollerInv p n Held) (hup : p.Updates c p')
    (hc : ∀ j, c = .conn j → j < n) : PollerInv p' n Held where
  fd_eq nFd d hd := by
    rw [hup.fd_eq]
    rcases hup.lookup_cases hd with hold | ⟨rfl, hfd, -⟩
    · exact h.fd_eq nFd d hold
    · exact hfd.symm
  index_nonneg j hj := hup.index_nonneg _ (Or.inr (h.index_nonneg j hj))
  held nFd j hj := by
    rcases hup.lookup_cases hj with hold | ⟨hjc, -, hindex⟩
    · exact h.held nFd j hold
    · have hnonneg := h.index_nonneg j (hc j hjc.symm)
      rw [hjc] at hnonneg
      exact absurd hindex (not_lt.mpr hnonneg)

/-- A call of an accepted connection. -/
theorem touches (h : PollerInv p n Held) (hi : i < n)
    (ht : ConnectionOver.Touches (CPoller.ops (Chan.conn i)) p p') :
    PollerInv p' n Held := by
  rcases ht with rfl | ⟨op, hop⟩
  · exact h
  · refine h.updates (CPoller.changeInterest_ok hop) fun j hj => ?_
    cases hj
    exact hi

/-- The channel of the connection `i` is removed. -/
theorem erases (h : PollerInv p n Held) (her : p.Erases (.conn i) p') :
    PollerInv p' n (fun j => Held j ∧ j ≠ i) where
  fd_eq nFd d hd := by
    rw [her.fd_eq]
    exact h.fd_eq nFd d (her.lookup_iff.mp hd).2
  index_nonneg j hj := her.index_nonneg _ (h.index_nonneg j hj)
  held nFd j hj := by
    obtain ⟨hne, hold⟩ := her.lookup_iff.mp hj
    refine ⟨h.held nFd j hold, ?_⟩
    rintro rfl
    exact hne (h.fd_eq nFd _ hold).symm

/-- The channel of a new connection is registered. -/
theorem accept {nFd : ℤ} (h : PollerInv p n Held) (hlt : ∀ j, Held j → j < n)
    (hup : CPoller.Updates
      { p with channel := Function.update p.channel (.conn n) (CChannel.new nFd) } (.conn n) p')
    (himp : ∀ j, Held j → Held' j) (hn : Held' n) : PollerInv p' (n + 1) Held' where
  fd_eq nFd' d hd := by
    rw [hup.fd_eq]
    rcases hup.lookup_cases hd with hold | ⟨rfl, hfd, -⟩
    · have hne : d ≠ .conn n := by
        rintro rfl
        exact lt_irrefl n (hlt n (h.held nFd' n hold))
      have hsame : Function.update p.channel (.conn n) (CChannel.new nFd) d = p.channel d :=
        Function.update_of_ne hne ..
      exact (congrArg CChannel.fd hsame).trans (h.fd_eq nFd' d hold)
    · exact hfd.symm
  index_nonneg j hj := by
    by_cases hjn : j = n
    · exact hup.index_nonneg _ (Or.inl (by rw [hjn]))
    · have hsame : Function.update p.channel (.conn n) (CChannel.new nFd) (.conn j) =
          p.channel (.conn j) := Function.update_of_ne (by simpa using hjn) ..
      have hindex := (h.index_nonneg j (by omega)).trans_eq (congrArg CChannel.index hsame).symm
      exact hup.index_nonneg _ (Or.inr hindex)
  held nFd' j hj := by
    rcases hup.lookup_cases hj with hold | ⟨heq, -, -⟩
    · exact himp j (h.held nFd' j hold)
    · cases heq
      exact hn

end PollerInv

/-! ## Who holds what -/

section inv

variable {T : Type} [DecidableEq T] {s s' : PolledServer T} {i : ℕ}

/-- The table holds the connection, or a functor that is not in the batch. -/
def Waiting (s : PolledServer T) (i : ℕ) : Prop :=
  s.InMap i ∨ .connectDestroyed i ∈ s.loop.pendingFunctors

/-- The table holds the connection, or a functor of `ConnectDestroyed` that is not over. -/
def Held (s : PolledServer T) (i : ℕ) : Prop :=
  s.Waiting i ∨ .connectDestroyed i ∈ s.loop.functors ∨ s.destroying = some i

/-- The channel of the connection is handling an event, or is still to be handled. -/
def Reported (s : PolledServer T) (i : ℕ) : Prop :=
  (∃ e ∈ s.active, e.1 = .conn i) ∨ ∃ e ∈ s.current, e.chan = .conn i

/-- The server and its connections as a connection table. -/
def table (s : PolledServer T) (live : Finset ℕ) : ServerTable := ⟨s.server, s.created, live, s.name⟩

/-- Registered connections are held, reported connections are waiting, and the batch keeps what is
held by functors of the batch. -/
structure ReleaseInv (s : PolledServer T) : Prop where
  /-- The flags of the loop agree with the position of the loop thread. -/
  control : s.loop.ControlInv
  /-- `ConnectDestroyed` runs in a functor. -/
  destroying_pc : s.destroying ≠ none → s.loop.pc = .inFunctor
  /-- Events are handled between the poll and the functors. -/
  handling_pc : s.active ≠ [] ∨ s.current ≠ none → s.loop.pc = .handling
  /-- Functors that have not been called are in the batch. -/
  functors_batch : ∀ f ∈ s.loop.functors, f ∈ s.batch
  /-- The functor of the current `ConnectDestroyed` is in the batch. -/
  destroying_batch : ∀ i ∈ s.destroying, .connectDestroyed i ∈ s.batch
  /-- The connection table is exact. -/
  table : ∃ live, (s.table live).TableInv
  /-- Held connections have been accepted. -/
  held_lt : ∀ i, s.Held i → i < s.created
  /-- Registered connections are held. -/
  poller : PollerInv s.poller s.created s.Held
  /-- Reported connections are waiting. -/
  reported : ∀ i, s.Reported i → s.Waiting i
  /-- The server exists. -/
  server : s.serverDestroyed = false

/-- Held connections exist. -/
theorem ReleaseInv.alive (h : s.ReleaseInv) (hi : s.Held i) : s.Alive i := by
  refine ⟨h.held_lt i hi, ?_⟩
  rcases hi with (hmap | hpending) | hfunctor | hdestroying
  · exact Or.inl hmap
  · exact Or.inr (Or.inl hpending)
  · exact Or.inr (Or.inr (Or.inl (h.functors_batch _ hfunctor)))
  · exact Or.inr (Or.inr (Or.inl (h.destroying_batch i hdestroying)))

/-- Outside functors, no connection is being destroyed. -/
theorem ReleaseInv.destroying_eq_none (h : s.ReleaseInv) (hpc : s.loop.pc ≠ .inFunctor) :
    s.destroying = none := by
  by_contra hne
  exact hpc (h.destroying_pc hne)

/-- Outside the handlers, nothing is reported. -/
theorem ReleaseInv.not_reported (h : s.ReleaseInv) (hpc : s.loop.pc ≠ .handling) : ¬ s.Reported i := by
  rintro (⟨e, he, -⟩ | ⟨e, he, -⟩)
  · exact hpc (h.handling_pc (Or.inl (List.ne_nil_of_mem he)))
  · exact hpc (h.handling_pc (Or.inr (Option.ne_none_iff_exists'.mpr ⟨e, he⟩)))

/-- Outside the functors, what is held is in the table or pending. -/
theorem ReleaseInv.waiting (h : s.ReleaseInv) (hpc : s.loop.pc ≠ .inFunctor)
    (hrunning : s.loop.pc ≠ .running) (hi : s.Held i) : s.Waiting i := by
  rcases hi with hwaiting | hfunctor | hdestroying
  · exact hwaiting
  · rw [h.control.functors_eq_nil hrunning hpc] at hfunctor
    cases hfunctor
  · rw [h.destroying_eq_none hpc] at hdestroying
    cases hdestroying

/-- A new server meets the invariant. -/
theorem releaseInv_new (fds : OwnFds) (sName : List Char) :
    ReleaseInv (new fds sName : PolledServer T) where
  control := CEventLoop.controlInv_new
  destroying_pc h := absurd rfl h
  handling_pc h := by simp [new] at h
  functors_batch f hf := by cases hf
  destroying_batch i hi := by cases hi
  table := ⟨∅, ServerTable.tableInv_new sName⟩
  held_lt i hi := by
    rcases hi with (⟨e, he, -⟩ | hpending) | hfunctor | hdestroying
    · cases he
    · cases hpending
    · cases hfunctor
    · cases hdestroying
  poller :=
    { fd_eq := fun nFd c hc => by
        rcases fds.lookup_loopPoller hc with ⟨rfl, rfl⟩ | ⟨rfl, rfl⟩ <;>
          exact fds.loopPoller_channel_fd _
      index_nonneg := fun i hi => absurd hi (Nat.not_lt_zero i)
      held := fun nFd i hi => by
        rcases fds.lookup_loopPoller hi with ⟨hconn, -⟩ | ⟨hconn, -⟩ <;> cases hconn }
  reported i hi := by
    rcases hi with ⟨e, he, -⟩ | ⟨e, he, -⟩ <;> cases he
  server := rfl

/-- A change of what the invariant says nothing about, and of the poller. -/
theorem ReleaseInv.setPoller (h : s.ReleaseInv) {poller : CPoller Chan}
    (hpoller : PollerInv poller s.created s.Held) (conns : ℕ → ConnectionOver Unit (List Byte))
    (listening : Bool) (users : Finset ℕ) (fault : Option Fault) :
    ReleaseInv { s with
      poller := poller, conns := conns, listening := listening, users := users, fault := fault } where
  control := h.control
  destroying_pc := h.destroying_pc
  handling_pc := h.handling_pc
  functors_batch := h.functors_batch
  destroying_batch := h.destroying_batch
  table := h.table
  held_lt := h.held_lt
  poller := hpoller
  reported := h.reported
  server := h.server

/-- What a step of the loop that is not about the server does to the functors. -/
theorem loopStep_functors {a : CEventLoop.Action ServerCall T} (hforeign : s.Foreign a)
    (ha : a ≠ .swap) :
    (a.next s.loop).functors = s.loop.functors ∧
    (∀ i, .connectDestroyed i ∈ (a.next s.loop).pendingFunctors ↔
      .connectDestroyed i ∈ s.loop.pendingFunctors) ∧
    (a = .leaveDoPendingFunctors ∨ (s.loopStep a).batch = s.batch) := by
  cases a with
  | poll | callFunctor => exact hforeign.elim
  | swap => exact absurd rfl ha
  | testQuit =>
      by_cases hquit : s.loop.quit = true <;> simp [CEventLoop.Action.next, hquit, loopStep]
  | queueInLoop cb =>
      refine ⟨rfl, fun i => ?_, Or.inr rfl⟩
      have hcb : cb ≠ .connectDestroyed i := by
        rintro rfl
        cases hforeign
      simp [CEventLoop.Action.next, CEventLoop.push, Ne.symm hcb]
  | threadQueueInLoop t cb =>
      refine ⟨rfl, fun i => ?_, Or.inr rfl⟩
      have hcb : cb ≠ .connectDestroyed i := by
        rintro rfl
        cases hforeign
      simp [CEventLoop.Action.next, CEventLoop.push, Ne.symm hcb]
  | leaveDoPendingFunctors => exact ⟨rfl, fun i => Iff.rfl, Or.inl rfl⟩
  | startLoop | handleRead | enterDoPendingFunctors | returnFunctor | wakeup | quitLoop
  | threadQuitLoop | threadWakeup => exact ⟨rfl, fun i => Iff.rfl, Or.inr rfl⟩

/-- At the swap, what was pending becomes the batch. -/
theorem ReleaseInv.swap (h : s.ReleaseInv) (hen : (CEventLoop.Action.swap).Enabled s.loop) :
    (s.loopStep .swap).ReleaseInv := by
  have hpc : s.loop.pc = .aboutToSwap := hen
  have hnone := h.destroying_eq_none (by simp [hpc])
  have hfunctors : s.loop.functors = [] :=
    h.control.functors_eq_nil (by simp [hpc]) (by simp [hpc])
  have hheld : ∀ i, (s.loopStep .swap).Held i ↔ s.Held i := by
    intro i
    simp [Held, Waiting, InMap, loopStep, CEventLoop.Action.next, hfunctors, or_assoc]
  have hreported : ∀ i, ¬ s.Reported i := fun i => h.not_reported (by simp [hpc])
  exact
    { control := h.control.step s.loop .swap _ ⟨hen, rfl⟩
      destroying_pc := fun hne => absurd hnone hne
      handling_pc := fun hne => by
        have hin := h.handling_pc hne
        rw [hpc] at hin
        cases hin
      functors_batch := fun f hf => hf
      destroying_batch := fun i hi => by
        have hi' : s.destroying = some i := hi
        rw [hnone] at hi'
        cases hi'
      table := h.table
      held_lt := fun i hi => h.held_lt i ((hheld i).mp hi)
      poller := h.poller.mono fun i => (hheld i).mpr
      reported := fun i hi => absurd hi (hreported i)
      server := h.server }

/-- A step of the loop that is not about the server. -/
theorem ReleaseInv.loop (h : s.ReleaseInv) {a : CEventLoop.Action ServerCall T}
    (hen : a.Enabled s.loop) (hforeign : s.Foreign a) : (s.loopStep a).ReleaseInv := by
  by_cases hswap : a = .swap
  · subst hswap
    exact h.swap hen
  obtain ⟨hfunctors, hpending, hbatch⟩ := loopStep_functors hforeign hswap
  have hwaiting : ∀ i, (s.loopStep a).Waiting i ↔ s.Waiting i := by
    intro i
    exact or_congr Iff.rfl (hpending i)
  have hheld : ∀ i, (s.loopStep a).Held i ↔ s.Held i := by
    intro i
    have hmem : (s.loopStep a).loop.functors = s.loop.functors := hfunctors
    exact or_congr (hwaiting i) (or_congr (by rw [hmem]) Iff.rfl)
  refine ⟨h.control.step s.loop a _ ⟨hen, rfl⟩, fun hne => ?_, fun hne => ?_, fun f hf => ?_,
    fun i hi => ?_, h.table, fun i hi => h.held_lt i ((hheld i).mp hi),
    h.poller.mono fun i => (hheld i).mpr, fun i hi => (hwaiting i).mpr (h.reported i hi), h.server⟩
  · apply CEventLoop.pc_of_inFunctor hen (h.destroying_pc hne)
    rintro rfl
    exact hne hforeign
  · apply CEventLoop.pc_of_handling hen (h.handling_pc hne)
    rintro rfl
    rcases hne with hactive | hcurrent
    · exact hactive hforeign.1
    · exact hcurrent hforeign.2
  · rcases hbatch with rfl | hbatch
    · have hnil : (s.loopStep .leaveDoPendingFunctors).loop.functors = [] := hen.2
      rw [hnil] at hf
      cases hf
    · rw [hbatch]
      exact h.functors_batch f (hfunctors ▸ hf)
  · rcases hbatch with rfl | hbatch
    · have hi' : s.destroying = some i := hi
      rw [h.destroying_eq_none (by simp [show s.loop.pc = .running from hen.1])] at hi'
      cases hi'
    · rw [hbatch]
      exact h.destroying_batch i hi

/-- `Poll` reports registered channels, and no functor is left from before. -/
theorem ReleaseInv.poll (h : s.ReleaseInv) {readable : Bool} {active : List (Chan × Events)}
    (hen : (CEventLoop.Action.poll readable).Enabled s.loop)
    (hactive : ∀ e ∈ active, e.1 ≠ .wakeup ∧ s.Reports e.1 e.2) :
    ReleaseInv { s with loop := (CEventLoop.Action.poll readable).next s.loop, active := active } := by
  have hpc : s.loop.pc = .atPoll := hen.1
  have hnone := h.destroying_eq_none (by simp [hpc])
  refine ⟨h.control.step _ _ _ ⟨hen, rfl⟩, fun hne => absurd hnone hne, fun _ => rfl,
    h.functors_batch, h.destroying_batch, h.table, h.held_lt, h.poller, fun i hi => ?_, h.server⟩
  rcases hi with ⟨e, he, hconn⟩ | hcurrent
  · obtain ⟨-, pFd, -, -, hlookup, -⟩ := hactive e he
    rw [hconn] at hlookup
    exact h.waiting (by simp [hpc]) (by simp [hpc]) (h.poller.held _ i hlookup)
  · exact absurd (Or.inr hcurrent) (h.not_reported (by simp [hpc]))

/-- Channels that are handled one after the other have been reported. -/
theorem ReleaseInv.setEvents (h : s.ReleaseInv) {active : List (Chan × Events)}
    {current : Option ChannelEvent}
    (hpc : active ≠ [] ∨ current ≠ none → s.loop.pc = .handling)
    (hreported : ∀ i, Reported { s with active := active, current := current } i → s.Reported i) :
    ReleaseInv { s with active := active, current := current } where
  control := h.control
  destroying_pc := h.destroying_pc
  handling_pc := hpc
  functors_batch := h.functors_batch
  destroying_batch := h.destroying_batch
  table := h.table
  held_lt := h.held_lt
  poller := h.poller
  reported i hi := h.reported i (hreported i hi)
  server := h.server

/-! ### The connection table -/

/-- The table holds the live connections. -/
theorem inMap_iff {live : Finset ℕ} (h : (s.table live).TableInv) : s.InMap i ↔ i ∈ live := by
  have hlookup : ∀ n, s.server.connectionMap.lookup n = some i ↔ i ∈ live ∧ s.name i = n :=
    fun n => h.exact_table.lookup_iff n i
  constructor
  · rintro ⟨⟨n, j⟩, he, rfl⟩
    exact ((hlookup n).mp (AList.mem_lookup_iff.mpr he)).1
  · intro hi
    exact ⟨⟨s.name i, i⟩, AList.mem_lookup_iff.mp ((hlookup _).mpr ⟨hi, rfl⟩), rfl⟩

/-- Below `2 ^ 31` connections, what is entered under the name of a connection is the connection. -/
theorem mem_live_of_name_mem {live : Finset ℕ} (h : (s.table live).TableInv)
    (hcreated : s.created < 2 ^ 31) (hi : i < s.created)
    (hname : s.name i ∈ s.server.connectionMap) : i ∈ live := by
  obtain ⟨j, hj⟩ := Option.isSome_iff_exists.mp (AList.lookup_isSome.mpr hname)
  obtain ⟨hlive, hsame⟩ := (h.exact_table.lookup_iff _ j).mp hj
  have hjlt := h.live_lt j hlive
  have hnames : connNameOf s.server.sName j = connNameOf s.server.sName i :=
    (h.name_eq j hjlt).symm.trans (hsame.trans (h.name_eq i hi))
  have hmod : j % 2 ^ 32 = i % 2 ^ 32 := connNameOf_inj.mp hnames
  have hjlt' : j < s.created := hjlt
  rw [Nat.mod_eq_of_lt (by omega), Nat.mod_eq_of_lt (by omega)] at hmod
  exact hmod ▸ hlive

/-- What the close callback does. -/
theorem removeConnection_ok (hok : s.removeConnection i = .ok s') :
    s.name i ∈ s.server.connectionMap ∧ s' = { s with
      server := { s.server with connectionMap := s.server.connectionMap.erase (s.name i) }
      loop := (CEventLoop.Action.queueInLoop (.connectDestroyed i)).next s.loop } := by
  obtain ⟨server, hserver, hok⟩ := bind_eq_ok_iff.mp hok
  obtain ⟨_, hmem, hserver⟩ := bind_eq_ok_iff.mp hserver
  cases Except.ok.inj hserver
  exact ⟨check_eq_ok_iff.mp hmem, (Except.ok.inj hok).symm⟩

/-- The close callback hands the connection from the table to a functor. -/
theorem ReleaseInv.removeConnection (h : s.ReleaseInv) (hcreated : s.created < 2 ^ 31)
    (hi : i < s.created) (hen : s.InHandling) (hok : s.removeConnection i = .ok s') :
    s'.ReleaseInv := by
  obtain ⟨hname, rfl⟩ := removeConnection_ok hok
  obtain ⟨live, htable⟩ := h.table
  have hlive := mem_live_of_name_mem htable hcreated hi hname
  obtain ⟨t, ht, htable', -⟩ := htable.removeConnection hlive
  obtain ⟨server, hserver, ht⟩ := bind_eq_ok_iff.mp ht
  obtain ⟨-, -, hserver⟩ := bind_eq_ok_iff.mp hserver
  cases Except.ok.inj hserver
  cases Except.ok.inj ht
  set s' : PolledServer T := { s with
    server := { s.server with connectionMap := s.server.connectionMap.erase (s.name i) }
    loop := (CEventLoop.Action.queueInLoop (.connectDestroyed i)).next s.loop } with hs'
  have hinMap : ∀ j, s'.InMap j ↔ j ∈ live.erase i := fun j => inMap_iff htable'
  have hpending : ∀ j, .connectDestroyed j ∈ s'.loop.pendingFunctors ↔
      .connectDestroyed j ∈ s.loop.pendingFunctors ∨ j = i := by
    intro j
    simp [hs', CEventLoop.Action.next, CEventLoop.push]
  -- what leaves the table is pending now
  have hwaiting : ∀ j, s'.Waiting j ↔ s.Waiting j := by
    intro j
    rw [Waiting, Waiting, hinMap, hpending, inMap_iff htable, Finset.mem_erase]
    by_cases hj : j = i
    · simp [hj, hlive]
    · simp [hj]
  have hheld : ∀ j, s'.Held j ↔ s.Held j := fun j => or_congr (hwaiting j) Iff.rfl
  have hpush : (CEventLoop.Action.queueInLoop (ServerCall.connectDestroyed i)).Enabled s.loop :=
    ⟨Or.inl hen.1, hen.2⟩
  exact
    { control := h.control.step _ _ _ ⟨hpush, rfl⟩
      destroying_pc := h.destroying_pc
      handling_pc := h.handling_pc
      functors_batch := h.functors_batch
      destroying_batch := h.destroying_batch
      table := ⟨live.erase i, htable'⟩
      held_lt := fun j hj => h.held_lt j ((hheld j).mp hj)
      poller := h.poller.mono fun j => (hheld j).mpr
      reported := fun j hj => (hwaiting j).mpr (h.reported j hj)
      server := h.server }

/-! ### New connections -/

/-- **A descriptor that is not open has no entry in the poller.** -/
theorem ReleaseInv.lookup_eq_none (h : s.ReleaseInv) {nFd : ℤ} (hopen : ¬ s.IsOpen nFd) :
    s.poller.channelsMap.lookup nFd = none := by
  by_contra hne
  obtain ⟨c, hc⟩ := Option.ne_none_iff_exists'.mp hne
  refine hopen ⟨c, ?_, h.poller.fd_eq nFd c hc⟩
  cases c with
  | timer | wakeup => trivial
  | acceptor => exact h.server
  | conn i => exact h.alive (h.poller.held nFd i hc)

/-- What `__NewConnection` does: it constructs the connection and registers its channel. -/
theorem newConnection_ok {nFd : ℤ} (hok : s.newConnection nFd = .ok s') :
    ∃ conn, (s.construct nFd).poller.Updates (.conn s.created) conn.channel ∧
      s' = (s.construct nFd).store s.created conn := by
  obtain ⟨⟨conn, callback⟩, hconn, hok⟩ := bind_eq_ok_iff.mp hok
  obtain ⟨channel, hchannel, rfl⟩ := ConnectionOver.connectEstablished_ok hconn
  have hchange : (s.construct nFd).poller.changeInterest (.conn s.created) .setEnableReading =
      .ok channel := hchannel
  exact ⟨_, CPoller.changeInterest_ok hchange, (Except.ok.inj hok).symm⟩

/-- **The assertions hold for a descriptor that is not open**: `__NewConnection` returns. -/
theorem ReleaseInv.exists_newConnection (h : s.ReleaseInv) {nFd : ℤ} (hopen : ¬ s.IsOpen nFd) :
    ∃ s', s.newConnection nFd = .ok s' := by
  have hchannel : (s.construct nFd).poller.channel (.conn s.created) = CChannel.new nFd :=
    Function.update_self ..
  have hindex : ((s.construct nFd).poller.channel (.conn s.created)).index < 0 := by
    rw [hchannel]
    exact neg_one_lt_zero
  have hnone : (s.construct nFd).poller.channelsMap.lookup
      ((s.construct nFd).poller.channel (.conn s.created)).fd = none := by
    rw [hchannel]
    exact h.lookup_eq_none hopen
  have hchange : (ops s.created).changeInterest ((s.construct nFd).connection s.created).channel
      .setEnableReading = .ok ((s.construct nFd).poller.firstReading (.conn s.created)) :=
    CPoller.setEnableReading_first hindex hnone
  have hstate : ((s.construct nFd).connection s.created).state = .eConnecting := by
    simp [connection, construct, ConnectionOver.setChannel, ConnectionOver.new]
  have hconn := ConnectionOver.connectEstablished_of hstate hchange
  exact ⟨_, bind_eq_ok_iff.mpr ⟨_, hconn, rfl⟩⟩

/-- `__NewConnection` enters the connection in the table before it registers its channel. -/
theorem ReleaseInv.newConnection (h : s.ReleaseInv) (hcreated : s.created < 2 ^ 31) {nFd : ℤ}
    (hok : s.newConnection nFd = .ok s') : s'.ReleaseInv := by
  obtain ⟨conn, hup, rfl⟩ := newConnection_ok hok
  obtain ⟨live, htable⟩ := h.table
  have hfresh : s.server.connName ∉ s.server.connectionMap := by
    intro hmem
    obtain ⟨i, hi, hmod⟩ := htable.connName_mem_iff.mp hmem
    have hilt : i < s.created := htable.live_lt i hi
    have hmod' : i % 2 ^ 32 = s.created % 2 ^ 32 := hmod
    rw [Nat.mod_eq_of_lt (by omega), Nat.mod_eq_of_lt (by omega)] at hmod'
    omega
  obtain ⟨t, ht, htable', -⟩ := htable.newConnection hfresh
  cases Except.ok.inj ht
  set s' := (s.construct nFd).store s.created conn with hs'
  have hinMap : ∀ j, s'.InMap j ↔ j = s.created ∨ s.InMap j := by
    intro j
    have hnew : s'.InMap j ↔ j ∈ insert s.created live := inMap_iff htable'
    rw [hnew, Finset.mem_insert, inMap_iff htable]
  have hwaiting : ∀ j, s'.Waiting j ↔ j = s.created ∨ s.Waiting j := by
    intro j
    rw [Waiting, hinMap, or_assoc]
    exact Iff.rfl
  have hheld : ∀ j, s'.Held j ↔ j = s.created ∨ s.Held j := by
    intro j
    rw [Held, hwaiting, or_assoc]
    exact Iff.rfl
  exact
    { control := h.control
      destroying_pc := h.destroying_pc
      handling_pc := h.handling_pc
      functors_batch := h.functors_batch
      destroying_batch := h.destroying_batch
      table := ⟨insert s.created live, htable'⟩
      held_lt := fun j hj => by
        rcases (hheld j).mp hj with rfl | hold
        · exact Nat.lt_succ_self _
        · exact (h.held_lt j hold).trans (Nat.lt_succ_self _)
      poller := h.poller.accept h.held_lt hup (fun j hj => (hheld j).mpr (Or.inr hj))
        ((hheld s.created).mpr (Or.inl rfl))
      reported := fun j hj => (hwaiting j).mpr (Or.inr (h.reported j hj))
      server := h.server }

/-! ### Functors -/

/-- A functor is called: what it holds is not held by the functors behind it, unless it is there
twice. -/
theorem ReleaseInv.callFunctor (h : s.ReleaseInv) {f : ServerCall} {fs : List ServerCall}
    (hen : (CEventLoop.Action.callFunctor).Enabled s.loop) (hfunctors : s.loop.functors = f :: fs)
    {destroying : Option ℕ} (hf : destroying = f.conn?) :
    ReleaseInv { s with
      loop := CEventLoop.Action.callFunctor.next s.loop, destroying := destroying } := by
  have hpc : s.loop.pc = .running := hen.1
  have hnone := h.destroying_eq_none (by simp [hpc])
  have hrest : (CEventLoop.Action.callFunctor.next s.loop).functors = fs := by
    simp [CEventLoop.Action.next, hfunctors]
  set s' : PolledServer T := { s with
    loop := CEventLoop.Action.callFunctor.next s.loop, destroying := destroying } with hs'
  have hheld : ∀ j, s'.Held j ↔ s.Held j := by
    intro j
    have hcall : (.connectDestroyed j ∈ fs ∨ destroying = some j) ↔
        (.connectDestroyed j ∈ s.loop.functors ∨ s.destroying = some j) := by
      rw [hfunctors, hf, ServerCall.conn?_eq_some, List.mem_cons, hnone]
      simp only [reduceCtorEq, or_false]
      rw [or_comm, eq_comm]
    refine or_congr Iff.rfl ?_
    rw [show s'.loop.functors = fs from hrest]
    exact hcall
  exact
    { control := h.control.step _ _ _ ⟨hen, rfl⟩
      destroying_pc := fun _ => rfl
      handling_pc := fun hne => by
        have hin := h.handling_pc hne
        rw [hpc] at hin
        cases hin
      functors_batch := fun g hg => by
        rw [show s'.loop.functors = fs from hrest] at hg
        exact h.functors_batch g (by simp [hfunctors, hg])
      destroying_batch := fun i hi => by
        have hfi : f = .connectDestroyed i := ServerCall.conn?_eq_some.mp (hf ▸ hi)
        exact h.functors_batch _ (by simp [hfunctors, hfi])
      table := h.table
      held_lt := fun j hj => h.held_lt j ((hheld j).mp hj)
      poller := h.poller.mono fun j => (hheld j).mpr
      reported := h.reported
      server := h.server }

/-- `ConnectDestroyed` removes the channel, and then holds the connection no longer. -/
theorem ReleaseInv.removeChannel (h : s.ReleaseInv) (hi : s.destroying = some i)
    {conn : PolledConnection} (hok : (s.connection i).removeChannel (ops i) = .ok conn) :
    ReleaseInv { s.store i conn with destroying := none } := by
  have hremove := removeChannel_poller hok
  have hheld : ∀ j, Held { s.store i conn with destroying := none } j → s.Held j := by
    rintro j (hwaiting | hfunctor | hnone)
    · exact Or.inl hwaiting
    · exact Or.inr (Or.inl hfunctor)
    · cases hnone
  exact
    { control := h.control
      destroying_pc := fun hne => absurd rfl hne
      handling_pc := h.handling_pc
      functors_batch := h.functors_batch
      destroying_batch := fun j hj => by cases hj
      table := h.table
      held_lt := fun j hj => h.held_lt j (hheld j hj)
      poller := (h.poller.erases (CPoller.removeChannel_ok hremove)).mono fun j hj => by
        rcases hj.1 with hwaiting | hfunctor | hdestroying
        · exact Or.inl hwaiting
        · exact Or.inr (Or.inl hfunctor)
        · rw [hi, Option.some.injEq] at hdestroying
          exact absurd hdestroying.symm hj.2
      reported := h.reported
      server := h.server }

/-! ## Runs -/

/-- The invariant is kept as long as fewer than `2 ^ 31` connections have been accepted. -/
theorem kept_releaseInv :
    Kept fun s : PolledServer T => s.created < 2 ^ 31 → s.ReleaseInv where
  fault s e h hlt := (h hlt).setPoller (h hlt).poller _ _ _ _
  loop s a h hen hforeign hlt := (h hlt).loop hen hforeign
  poll s readable active h hen hactive hlt := (h hlt).poll hen hactive
  handleEvent s c revents active h hen hactive hlt := by
    refine (h hlt).setEvents (fun _ => hen.1) fun i hi => Or.inl ?_
    rcases hi with ⟨e, he, hconn⟩ | ⟨e, he, hconn⟩
    · exact ⟨e, by simp [hactive, show e ∈ active from he], hconn⟩
    · cases he
      exact ⟨(c, revents), by simp [hactive], hconn⟩
  callback s c revents hd rest h hcurrent hlt := by
    have hpc := (h hlt).handling_pc (Or.inr (by simp [hcurrent]))
    refine (h hlt).setEvents (fun _ => hpc) fun i hi => ?_
    rcases hi with hactive | ⟨e, he, hconn⟩
    · exact Or.inl hactive
    · cases he
      exact Or.inr ⟨_, hcurrent, hconn⟩
  handled s h hlt := by
    refine (h hlt).setEvents (fun hne => ?_) fun i hi => ?_
    · rcases hne with hactive | hnone
      · exact (h hlt).handling_pc (Or.inl hactive)
      · exact absurd rfl hnone
    · rcases hi with hactive | ⟨e, he, -⟩
      · exact Or.inl hactive
      · cases he
  store s i conn h hi ht hlt := (h hlt).setPoller ((h hlt).poller.touches hi.1 ht) _ _ _ _
  removeConnection s i s' h hen hi hok hlt := by
    have hcreated : s'.created = s.created := by rw [(removeConnection_ok hok).2]
    rw [hcreated] at hlt
    exact (h hlt).removeConnection hlt hi.1 hen hok
  newConnection s nFd s' h hen hcurrent hopen hok hlt := by
    have hcreated : s'.created = s.created + 1 := by
      obtain ⟨conn, -, rfl⟩ := newConnection_ok hok
      rfl
    have hlt' : s.created < 2 ^ 31 := by omega
    exact (h hlt').newConnection hlt' hok
  startListen s s' h hok hlt := by
    obtain ⟨poller, hpoller, hok⟩ := bind_eq_ok_iff.mp hok
    cases Except.ok.inj hok
    have hup := CPoller.changeInterest_ok hpoller
    exact (h hlt).setPoller ((h hlt).poller.updates hup fun j hj => by cases hj) _ _ _ _
  callFunctor s f fs h hen hfunctors hf hlt := by
    have hnone := (h hlt).destroying_eq_none (by simp [hen.1])
    exact (h hlt).callFunctor hen hfunctors (hnone.trans hf.symm)
  connectDestroyed s i fs conn callback h hen hfunctors hok hlt := by
    have hi : i < s.created := (h hlt).held_lt i (Or.inr (Or.inl (by simp [hfunctors])))
    have hcall : ReleaseInv { s with
        loop := CEventLoop.Action.callFunctor.next s.loop, destroying := some i } :=
      (h hlt).callFunctor hen hfunctors rfl
    have htouches := ConnectionOver.touches_connectDestroyed hok
    exact hcall.setPoller (hcall.poller.touches hi htouches) _ _ _ _
  removeChannel s i conn h hi hok hlt := (h hlt).removeChannel hi hok
  setUsers s users h hlt := (h hlt).setPoller (h hlt).poller _ _ _ _

/-- **Connections are released after they are unregistered.** In every run of a server on its loop
in which fewer than `2 ^ 31` connections have been accepted, whatever user code keeps and drops and
whatever descriptors the kernel gives:
* a connection whose channel is registered has not been destroyed;
* what is active, or in `HandleEvent`, has not been destroyed;
* a descriptor that is not open has no entry in the poller, and `__NewConnection` with it
returns. -/
theorem releaseOrder_run {fds : OwnFds} {sName : List Char} {as : List (Action T)}
    (hrun : Run Step (new fds sName) as s) (hcreated : s.created < 2 ^ 31) :
    (∀ nFd i, s.poller.channelsMap.lookup nFd = some (.conn i) → s.Alive i) ∧
    (∀ e ∈ s.active, s.ChannelExists e.1) ∧
    (∀ e ∈ s.current, s.ChannelExists e.chan) ∧
    (∀ nFd, ¬ s.IsOpen nFd → s.poller.channelsMap.lookup nFd = none ∧
      ∃ s', s.newConnection nFd = .ok s') := by
  have hinv := hrun.invariant kept_releaseInv.step (fun _ => releaseInv_new fds sName) hcreated
  have hexists : ∀ c, (∀ i, c = .conn i → s.Reported i) → s.ChannelExists c := by
    intro c hc
    cases c with
    | timer | wakeup => trivial
    | acceptor => exact hinv.server
    | conn i => exact hinv.alive (Or.inl (hinv.reported i (hc i rfl)))
  refine ⟨fun nFd i hi => hinv.alive (hinv.poller.held nFd i hi), fun e he => ?_, fun e he => ?_,
    fun nFd hopen => ⟨hinv.lookup_eq_none hopen, hinv.exists_newConnection hopen⟩⟩
  · exact hexists e.1 fun i hi => Or.inl ⟨e, he, hi⟩
  · exact hexists e.chan fun i hi => Or.inr ⟨e, he, hi⟩

end inv

/-- The descriptors in the runs below. -/
def someFds : OwnFds where
  timer := 3
  wakeup := 4
  acceptor := 5
  nonneg := by decide
  distinct := by decide

/-- The server listens and accepts a connection. -/
def acceptOne : List (Action Unit) :=
  [.start, .loop .startLoop, .loop .testQuit, .poll false [(.acceptor, pollIn)], .handleEvent,
    .handler .error 0 (some 6), .handled, .loop .enterDoPendingFunctors, .loop .swap,
    .loop .leaveDoPendingFunctors, .loop .testQuit]

/-- The peer closes the connection, which is destroyed while the functors run; the next connection
is about to get its descriptor. -/
def reuseFd : List (Action Unit) :=
  acceptOne ++ [.poll false [(.conn 0, pollIn)], .handleEvent, .handler (.bytes []) 0 none, .handled,
    .loop .enterDoPendingFunctors, .loop .swap, .callFunctor, .removeChannel, .loop .returnFunctor,
    .loop .leaveDoPendingFunctors, .loop .testQuit, .poll false [(.acceptor, pollIn)], .handleEvent]

/-- The theorem on a descriptor that is used again. -/
theorem releaseOrder_run_reuseFd : ∃ s s' : PolledServer Unit,
    Run Step (new someFds ['s']) reuseFd s ∧ ¬ s.Alive 0 ∧ s.newConnection 6 = .ok s' := by
  have hrun : ∃ s : PolledServer Unit, Run Step (new someFds ['s']) reuseFd s ∧ s.created = 1 ∧
      ¬ s.Alive 0 ∧ ¬ s.IsOpen 6 := ⟨_, run_of_exec rfl, rfl, by decide, by decide⟩
  obtain ⟨s, hrun, hcreated, hdead, hopen⟩ := hrun
  obtain ⟨-, s', hok⟩ := (releaseOrder_run hrun (by simp [hcreated])).2.2.2 6 hopen
  exact ⟨s, s', hrun, hdead, hok⟩

end PolledServer

end Neconet
