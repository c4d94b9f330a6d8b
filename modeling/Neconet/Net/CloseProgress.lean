import Neconet.Net.SendProgress

/-!
# A closed connection is let go

What follows the close callback, if nobody stops for ever: `ConnectDestroyed` is called, the channel
is removed from the poller, and when the batch is over, the shared pointers of the server and of the
loop are gone. The pointers that are left are those of threads that are in a call on the connection.

* `owners_cases`: what a step does to the holders of the connection.
* `HoldInv`: a thread holds the connection only in its call.
* `Gone`: the channel has been removed; nothing brings it back.
* `closeProgress_run`: what a closed connection comes to.
-/

set_option linter.unusedSectionVars false

namespace Neconet

open Transition

namespace ConnectionLoop

variable {T : Type} [DecidableEq T] {s s' : ConnectionLoop T} {a : Action T}

/-! ## The holders -/

/-- **What a step does to the holders**: nothing; a batch with `ConnectDestroyed` is released; the
close callback takes the connection out of the map; or a call of a thread begins or ends. -/
theorem owners_cases (hst : Step s a s') :
    s'.owners = s.owners ∨ s'.owners = s.owners.erase .functor ∨
    (s.active = true ∧ s'.owners = insert .functor (s.owners.erase .map) ∧
      CEventLoop.Step s.loop (.queueInLoop .connectDestroyed) s'.loop) ∨
    (∃ t, s'.owners = insert (.thread t) s.owners ∧ s'.calls t ≠ .idle) ∨
    ∃ t, s'.owners = s.owners.erase (.thread t) := by
  obtain ⟨⟨-, hpossible⟩, rfl⟩ := hst
  rcases hrun : a.run s with e | s'
  · rw [next_of_error hrun]
    exact Or.inl rfl
  rw [next_of_ok hrun]
  have hreadSide : (∃ result, a = .handleRead result) ∨ a = .handleClose → s.InHandler →
      s'.owners = s.owners ∨
      s.active = true ∧ s'.owners = insert .functor (s.owners.erase .map) ∧
        CEventLoop.Step s.loop (.queueInLoop .connectDestroyed) s'.loop := by
    intro ha hin
    obtain ⟨conn, -, rfl | hclose⟩ := readSide_of_run ha hrun
    · exact Or.inl rfl
    · obtain ⟨-, rfl⟩ := removeConnection_ok hclose
      exact Or.inr ⟨hin.2.2, rfl, ⟨Or.inl hin.1, hin.2.1⟩, rfl⟩
  cases a with
  | loop b =>
      cases Except.ok.inj hrun
      unfold loopStep
      dsimp only
      split_ifs
      · exact Or.inr (Or.inl rfl)
      · exact Or.inl rfl
  | handleRead result =>
      rcases hreadSide (Or.inl ⟨result, rfl⟩) hpossible with hsame | hclose
      · exact Or.inl hsame
      · exact Or.inr (Or.inr (Or.inl hclose))
  | handleClose =>
      rcases hreadSide (Or.inr rfl) hpossible with hsame | hclose
      · exact Or.inl hsame
      · exact Or.inr (Or.inr (Or.inl hclose))
  | handleWrite n =>
      obtain ⟨conn, -, hrun⟩ := bind_eq_ok_iff.mp hrun
      cases Except.ok.inj hrun
      exact Or.inl rfl
  | callFunctor result =>
      obtain ⟨cb, rest, hcons⟩ := List.exists_cons_of_ne_nil hpossible.1.2
      unfold Action.run at hrun
      rw [hcons] at hrun
      exact Or.inl (later_runFunctor hrun).1.owners_eq
  | send rMessage result => exact Or.inl (later_loopSend hrun).2.1.owners_eq
  | threadSend t rMessage =>
      cases Except.ok.inj hrun
      exact Or.inr (Or.inr (Or.inr (Or.inl ⟨t, rfl, by simp [goto]⟩)))
  | threadShutDown t =>
      cases Except.ok.inj hrun
      exact Or.inr (Or.inr (Or.inr (Or.inl ⟨t, rfl, by simp [goto]⟩)))
  | threadTest t =>
      cases Except.ok.inj hrun
      left
      rcases test_cases hpossible with ⟨rMessage, -, heq⟩ | ⟨pc, -, heq⟩
      · rw [heq]
        rfl
      · rw [heq]
        rfl
  | threadPush t =>
      cases Except.ok.inj hrun
      unfold threadPush
      split <;> exact Or.inl rfl
  | threadReturn t =>
      cases Except.ok.inj hrun
      exact Or.inr (Or.inr (Or.inr (Or.inr ⟨t, rfl⟩)))
  | poll | handled | shutDown | threadSetState =>
      cases Except.ok.inj hrun
      exact Or.inl rfl

/-- Only the close callback takes the connection out of the map. -/
theorem removal_of_step (hst : Step s a s') (hmap : .map ∈ s.owners) (hnot : .map ∉ s'.owners) :
    CEventLoop.Step s.loop (.queueInLoop .connectDestroyed) s'.loop := by
  rcases owners_cases hst with h | h | ⟨-, -, hqueue⟩ | ⟨t, h, -⟩ | ⟨t, h⟩
  · exact absurd (h ▸ hmap) hnot
  · exact absurd (by simp [h, hmap]) hnot
  · exact hqueue
  · exact absurd (by simp [h, hmap]) hnot
  · exact absurd (by simp [h, hmap]) hnot

/-- And nobody puts it back. -/
theorem map_not_mem_of_step (hst : Step s a s') (hnot : .map ∉ s.owners) : .map ∉ s'.owners := by
  rcases owners_cases hst with h | h | ⟨-, h, -⟩ | ⟨t, h, -⟩ | ⟨t, h⟩ <;> simp [h, hnot]

/-- A thread is out of its call only when its shared pointer is released. -/
theorem calls_idle_of_step {t : T} (hst : Step s a s') (hidle : s'.calls t = .idle)
    (hcall : s.calls t ≠ .idle) : .thread t ∉ s'.owners := by
  by_cases ha : a.IsOf t
  · obtain ⟨⟨-, hpossible⟩, rfl⟩ := hst
    cases a with
    | threadReturn u =>
        cases ha
        exact Finset.notMem_erase _ _
    | threadSend u | threadShutDown u =>
        cases ha
        exact absurd hpossible.1 hcall
    | threadTest u =>
        cases ha
        have htest : (s.calls t).AtTest := hpossible
        change (s.test t).calls t = .idle at hidle
        rcases test_cases htest with ⟨rMessage, -, heq⟩ | ⟨pc, hpc, heq⟩
        · rw [heq, goto_calls_self] at hidle
          cases hidle
        · rw [heq, goto_calls_self] at hidle
          subst hidle
          simp at hpc
    | threadSetState u =>
        cases ha
        change (s.goto t .shutDownSet).calls t = .idle at hidle
        rw [goto_calls_self] at hidle
        cases hidle
    | threadPush u =>
        cases ha
        change (s.threadPush t).calls t = .idle at hidle
        obtain ⟨cb, hcb⟩ := Option.ne_none_iff_exists'.mp hpossible.1
        simp [threadPush, hcb, goto] at hidle
    | loop | poll | handleRead | handleWrite | handleClose | handled | callFunctor | send
    | shutDown => exact ha.elim
  · rw [calls_of_not_isOf hst ha] at hidle
    exact absurd hidle hcall

/-- A thread that holds the connection is in a call on it. -/
def HoldInv (s : ConnectionLoop T) : Prop := ∀ t, .thread t ∈ s.owners → s.calls t ≠ .idle

/-- **Every step keeps it.** -/
theorem HoldInv.step (s : ConnectionLoop T) (a : Action T) (s' : ConnectionLoop T) (h : s.HoldInv)
    (hst : Step s a s') : s'.HoldInv := by
  intro t ht hidle
  have hold : .thread t ∈ s.owners → False := fun hmem => calls_idle_of_step hst hidle (h t hmem) ht
  rcases owners_cases hst with heq | heq | ⟨-, heq, -⟩ | ⟨u, heq, hu⟩ | ⟨u, heq⟩
  · exact hold (heq ▸ ht)
  · exact hold (by simpa [heq] using ht)
  · exact hold (by simpa [heq] using ht)
  · rw [heq, Finset.mem_insert] at ht
    rcases ht with hsame | hmem
    · cases hsame
      exact hu hidle
    · exact hold hmem
  · exact hold (Finset.mem_of_mem_erase (heq ▸ ht))

/-- Handlers of the channel are to come only while the active channels are handled. -/
def ActiveInv (s : ConnectionLoop T) : Prop := s.active = true → s.loop.pc = .handling

/-- **Every step keeps it.** -/
theorem ActiveInv.step (s : ConnectionLoop T) (a : Action T) (s' : ConnectionLoop T)
    (h : s.ActiveInv) (hst : Step s a s') : s'.ActiveInv := by
  obtain ⟨⟨-, hpossible⟩, rfl⟩ := hst
  refine next_induction h (fun e h => h) fun s' hrun => ?_
  have hreadSide : (∃ result, a = .handleRead result) ∨ a = .handleClose → s'.ActiveInv := by
    intro ha
    obtain ⟨conn, -, rfl | hclose⟩ := readSide_of_run ha hrun
    · exact h
    · obtain ⟨-, rfl⟩ := removeConnection_ok hclose
      exact h
  cases a with
  | loop b =>
      cases Except.ok.inj hrun
      intro hactive
      refine CEventLoop.pc_of_handling hpossible.1 (h hactive) ?_
      rintro rfl
      have hnone : s.active = false := hpossible.2
      exact Bool.false_ne_true (hnone.symm.trans hactive)
  | poll readable reported =>
      cases Except.ok.inj hrun
      exact fun _ => rfl
  | handleRead result => exact hreadSide (Or.inl ⟨result, rfl⟩)
  | handleClose => exact hreadSide (Or.inr rfl)
  | handleWrite n =>
      obtain ⟨conn, -, hrun⟩ := bind_eq_ok_iff.mp hrun
      cases Except.ok.inj hrun
      exact h
  | handled =>
      cases Except.ok.inj hrun
      exact nofun
  | callFunctor result =>
      obtain ⟨cb, rest, hcons⟩ := List.exists_cons_of_ne_nil hpossible.1.2
      unfold Action.run at hrun
      rw [hcons] at hrun
      intro hactive
      rw [(later_runFunctor hrun).1.active_eq] at hactive
      have hpc := h hactive
      simp [hpossible.1.1] at hpc
  | send rMessage result =>
      obtain ⟨hloop, hsame, -⟩ := later_loopSend hrun
      rw [ActiveInv, hloop, hsame.active_eq]
      exact h
  | threadTest t =>
      cases Except.ok.inj hrun
      rcases test_cases hpossible with ⟨rMessage, -, heq⟩ | ⟨pc, -, heq⟩
      · rw [heq]
        exact h
      · rw [heq]
        exact h
  | threadPush t =>
      cases Except.ok.inj hrun
      unfold threadPush
      split <;> exact h
  | shutDown | threadSend | threadShutDown | threadSetState | threadReturn =>
      cases Except.ok.inj hrun
      exact h

/-! ## Behind `ConnectDestroyed` -/

/-- The channel has been removed from the poller, and no handler of it is to come. -/
structure Gone (s : ConnectionLoop T) : Prop where
  /-- The channel is not registered, and has no interest. -/
  channel_eq : s.conn.channel = ⟨noneEvent, .removed⟩
  /-- The connection is not connected. -/
  state_ne : s.conn.state ≠ .eConnected
  /-- No handler is to come. -/
  active_eq : s.active = false

/-- `ConnectDestroyed` removes the channel. -/
theorem gone_connectDestroyed {loop : CEventLoop (Functor T) T} {result : ℤ}
    (hactive : s.active = false)
    (hrun : runFunctor { s with loop := loop } result .connectDestroyed = .ok s') : s'.Gone := by
  obtain ⟨⟨conn, callback⟩, hdestroyed, hrun⟩ := bind_eq_ok_iff.mp hrun
  obtain ⟨conn', hremove, hrun⟩ := bind_eq_ok_iff.mp hrun
  cases Except.ok.inj hrun
  have hconn := (CTcpConnection.connectDestroyed_ok hdestroyed hremove).1
  refine ⟨?_, ?_, hactive⟩
  · dsimp only
    rw [hconn]
  · dsimp only
    rw [hconn]
    exact nofun

/-- A functor that returns does not bring the channel back. -/
theorem Gone.runFunctor {loop : CEventLoop (Functor T) T} {cb : Functor T} {result : ℤ} (h : s.Gone)
    (hrun : runFunctor { s with loop := loop } result cb = .ok s') : s'.Gone := by
  cases cb with
  | sendInLoop m =>
      unfold ConnectionLoop.runFunctor at hrun
      split_ifs at hrun
      obtain ⟨conn, hconn, hrun⟩ := bind_eq_ok_iff.mp hrun
      cases Except.ok.inj hrun
      obtain ⟨channel, rfl, hsame | hset⟩ := CTcpConnection.sendInLoop_ok hconn
      · exact ⟨hsame.trans h.channel_eq, h.state_ne, h.active_eq⟩
      · -- the poller does not know the channel any more
        rw [show s.conn.channel = _ from h.channel_eq] at hset
        cases hset
  | shutdownInLoop =>
      unfold ConnectionLoop.runFunctor at hrun
      split_ifs at hrun
      cases Except.ok.inj hrun
      refine ⟨?_, ?_, h.active_eq⟩
      · dsimp only
        rw [CTcpConnection.shutdownInLoop_eq]
        exact h.channel_eq
      · dsimp only
        rw [CTcpConnection.shutdownInLoop_eq]
        exact h.state_ne
  | connectDestroyed => exact gone_connectDestroyed h.active_eq hrun
  | other =>
      cases Except.ok.inj hrun
      exact ⟨h.channel_eq, h.state_ne, h.active_eq⟩

/-- **Nothing brings the channel back.** -/
theorem Gone.step (s : ConnectionLoop T) (a : Action T) (s' : ConnectionLoop T) (h : s.Gone)
    (hst : Step s a s') : s'.Gone := by
  obtain ⟨⟨-, hpossible⟩, rfl⟩ := hst
  refine next_induction h (fun e h => ⟨h.channel_eq, h.state_ne, h.active_eq⟩) fun s' hrun => ?_
  have hnot : ¬ s.InHandler := fun hin => Bool.false_ne_true (h.active_eq.symm.trans hin.2.2)
  cases a with
  | handleRead | handleClose | handled => exact absurd hpossible hnot
  | handleWrite => exact absurd hpossible.1 hnot
  | poll readable reported =>
      cases Except.ok.inj hrun
      refine ⟨h.channel_eq, h.state_ne, Bool.eq_false_iff.mpr fun hreported => ?_⟩
      have hwatched := hpossible.2 hreported
      rw [h.channel_eq] at hwatched
      cases hwatched
  | callFunctor result =>
      obtain ⟨cb, rest, hcons⟩ := List.exists_cons_of_ne_nil hpossible.1.2
      unfold Action.run at hrun
      rw [hcons] at hrun
      exact h.runFunctor hrun
  | send rMessage result =>
      have hsame : s.loopSend rMessage result = .ok s := if_neg h.state_ne
      cases Except.ok.inj (hsame.symm.trans hrun)
      exact h
  | shutDown =>
      cases Except.ok.inj hrun
      have hsame : s.conn.shutDown = s.conn := CTcpConnection.shutDown_of_ne h.state_ne
      refine ⟨?_, ?_, h.active_eq⟩
      · dsimp only
        rw [hsame, h.channel_eq]
      · dsimp only
        rw [hsame]
        exact h.state_ne
  | threadTest t =>
      cases Except.ok.inj hrun
      rcases test_cases hpossible with ⟨rMessage, -, heq⟩ | ⟨pc, -, heq⟩
      · rw [heq]
        exact ⟨h.channel_eq, h.state_ne, h.active_eq⟩
      · rw [heq]
        exact ⟨h.channel_eq, h.state_ne, h.active_eq⟩
  | threadSetState t =>
      cases Except.ok.inj hrun
      exact ⟨h.channel_eq, nofun, h.active_eq⟩
  | threadPush t =>
      cases Except.ok.inj hrun
      unfold threadPush
      split <;> exact ⟨h.channel_eq, h.state_ne, h.active_eq⟩
  | loop | threadSend | threadShutDown | threadReturn =>
      cases Except.ok.inj hrun
      exact ⟨h.channel_eq, h.state_ne, h.active_eq⟩

/-- Nor does the loop take the connection again. -/
theorem Gone.functor_not_mem (h : s.Gone) (hst : Step s a s') (hnot : .functor ∉ s.owners) :
    .functor ∉ s'.owners := by
  rcases owners_cases hst with heq | heq | ⟨hactive, -⟩ | ⟨t, heq, -⟩ | ⟨t, heq⟩
  · rwa [heq]
  · simp [heq]
  · exact absurd (h.active_eq.symm.trans hactive) Bool.false_ne_true
  · simp [heq, hnot]
  · simp [heq, hnot]

/-! ## If nobody stops -/

variable {x : Behaviour (Step (T := T))} {n : ℕ}

/-- The close callback has queued `ConnectDestroyed`. -/
theorem exists_queued (h₀ : (x.state 0).Initial) (hclosed : .map ∉ (x.state n).owners) :
    ∃ j, .connectDestroyed ∈ (x.state j).loop.line := by
  have hmap : .map ∈ (x.state 0).owners := by simp [h₀.owners_eq]
  obtain ⟨j, a, -, hin, hst, hout⟩ :=
    x.exists_last (P := fun s => .map ∈ s.owners) hmap ⟨n, Nat.zero_le n, hclosed⟩
  have hqueue := removal_of_step hst hin hout
  refine ⟨j + 1, ?_⟩
  rw [(kept_state h₀ j).1.line_step hqueue]
  exact List.mem_append_right _ (List.mem_singleton_self _)

/-- **The moment in which `ConnectDestroyed` is called.** -/
theorem exists_gone (h₀ : (x.state 0).Initial) (hran : .connectDestroyed ∈ (x.state n).loop.ran) :
    ∃ k, (x.state k).Gone ∧ .connectDestroyed ∈ (x.state k).loop.ran ∧
      (x.state k).loop.InBatch := by
  have hnot : .connectDestroyed ∉ (x.state 0).loop.ran := fun hmem => by
    cases h₀.ran_eq _ hmem
  obtain ⟨k, a, -, hbefore, hst, hafter⟩ := x.exists_last
    (P := fun s => .connectDestroyed ∉ s.loop.ran) hnot ⟨n, Nat.zero_le n, not_not.mpr hran⟩
  rw [not_not] at hafter
  rcases loop_step hst with hsame | ⟨b, hcall, -, hloop⟩ | ⟨result, cb, rest, -, hen, hcons, hrun⟩
  · rw [hsame] at hafter
    exact absurd hafter hbefore
  · rw [((kept_state h₀ k).1.queue_step hloop hcall).1] at hafter
    exact absurd hafter hbefore
  · have hloop := (runFunctor_ok hrun).1
    have hcb : .connectDestroyed = cb := by
      rw [hloop, (CEventLoop.queue_callFunctor hcons).1, List.mem_append] at hafter
      exact List.mem_singleton.mp (hafter.resolve_left hbefore)
    subst hcb
    have hactive : (x.state k).active = false := by
      have hinv : (x.state k).ActiveInv := x.invariant ActiveInv.step (Nat.zero_le k) fun hset => by
        rw [h₀.active_eq] at hset
        cases hset
      refine Bool.eq_false_iff.mpr fun hset => ?_
      exact nomatch hen.1.symm.trans (hinv hset)
    refine ⟨k + 1, gone_connectDestroyed hactive hrun, hafter, Or.inr ?_⟩
    rw [hloop]
    rfl

/-- **When its batch is over, the loop holds the connection no more.** -/
theorem exists_released (h₀ : (x.state 0).Initial) (hran : .connectDestroyed ∈ (x.state n).loop.ran)
    (hbatch : (x.state n).loop.InBatch) (hend : ∃ k, n ≤ k ∧ ¬ (x.state k).loop.InBatch) :
    ∃ m, n ≤ m ∧ .functor ∉ (x.state m).owners := by
  obtain ⟨m, a, hnm, hin, hst, hout⟩ := x.exists_last (P := fun s => s.loop.InBatch) hbatch hend
  have hran' : .connectDestroyed ∈ (x.state m).loop.ran :=
    CEventLoop.mem_ran (x := loops x) hnm (kept_state h₀ n).1 hran
  rcases loop_step hst with hsame | ⟨b, -, hleave, hloop⟩ | ⟨result, cb, rest, -, hen, hcons, hrun⟩
  · rw [hsame] at hout
    exact absurd hin hout
  · have hb : b = .leaveDoPendingFunctors := by
      by_contra hne
      exact hout (hin.step hloop hne).1
    refine ⟨m + 1, by omega, ?_⟩
    rw [hleave hb, hb] at hst
    have howners : (x.state (m + 1)).owners = (x.state m).owners.erase .functor := by
      rw [hst.2]
      exact if_pos ⟨rfl, hran'⟩
    simp [howners]
  · exact absurd (hin.step ⟨hen, (runFunctor_ok hrun).1⟩ nofun).1 hout

/-- **A closed connection is let go.** In every behaviour of a connection on its loop in which
nobody stops for ever, with any number of threads that send and shut down at any time: as long as
`StartLoop` goes on, once the close callback has taken the connection out of the map there comes a
moment from which on its channel is not registered in the poller, and only threads in the middle of
a call on it hold the connection, so that it is destroyed when there are none, unless the program
ends with a failed assertion or on a destroyed connection. -/
theorem closeProgress_run (h₀ : (x.state 0).Initial)
    (hgoes : (∀ k, (x.state k).fault = none) → Goes x)
    (hin : ∀ m, n ≤ m → (x.state m).loop.pc ≠ .outside) (hclosed : .map ∉ (x.state n).owners) :
    (∃ k, n ≤ k ∧ ∀ m, k ≤ m → (x.state m).conn.channel = ⟨noneEvent, .removed⟩ ∧
      ∀ o ∈ (x.state m).owners, ∃ t, o = .thread t ∧ (x.state m).calls t ≠ .idle) ∨
    ∃ k, (x.state k).fault ≠ none := by
  refine or_fault hgoes fun hgoes => ?_
  -- `ConnectDestroyed` is in the line, and is called
  obtain ⟨j, hj⟩ := exists_queued h₀ hclosed
  have hline : .connectDestroyed ∈ (x.state (max n j)).loop.line :=
    (CEventLoop.line_mono (x := loops x) (le_max_right n j) (kept_state h₀ j).1).subset hj
  obtain ⟨i, hi⟩ := List.mem_iff_getElem?.mp hline
  obtain ⟨r, hr, hran⟩ := hgoes.loop.callsFunctor (kept_state h₀ _) hi fun m hm => hin m (by omega)
  obtain ⟨k, hgone, hrank, hbatch⟩ := exists_gone h₀ (List.mem_of_getElem? hran)
  -- its batch ends in front of the next `Poll`
  obtain ⟨l, hl, hat⟩ := hgoes.loop.exists_atPoll (n := max n k) fun m hm => hin m (by omega)
  have hend : ¬ (x.state l).loop.InBatch := by
    rintro (hpc | hpc)
    · exact nomatch hpc.symm.trans hat
    · exact nomatch hpc.symm.trans hat
  obtain ⟨m, hkm, hfunctor⟩ := exists_released h₀ hrank hbatch ⟨l, by omega, hend⟩
  have hgonem : (x.state m).Gone := x.invariant Gone.step hkm hgone
  refine ⟨max n m, le_max_left n m, fun p hp => ?_⟩
  have hreleased := x.invariant (I := fun s => s.Gone ∧ .functor ∉ s.owners)
    (fun s a t h hst => ⟨h.1.step s a t hst, h.1.functor_not_mem hst h.2⟩)
    (show m ≤ p by omega) ⟨hgonem, hfunctor⟩
  have hmap := x.invariant (I := fun s => .map ∉ s.owners)
    (fun s a t h hst => map_not_mem_of_step hst h) (show n ≤ p by omega) hclosed
  have hhold : (x.state p).HoldInv := x.invariant HoldInv.step (Nat.zero_le p) fun t ht => by
    simp [h₀.owners_eq] at ht
  refine ⟨hreleased.1.channel_eq, fun o ho => ?_⟩
  cases o with
  | map => exact absurd ho hmap
  | functor => exact absurd ho hreleased.2
  | thread t => exact ⟨t, rfl, hhold t ho⟩

/-- The peer closes while a thread is in `Send`; then the loop thread stays in `Poll`. -/
def closedByPeer : Behaviour (Step (T := Unit)) :=
  .ofLabels start [.threadSend () [1], .loop .enterDoPendingFunctors, .loop .swap,
    .loop .leaveDoPendingFunctors, .loop .testQuit, .poll false true, .handleRead (.bytes []),
    .handled, .loop .enterDoPendingFunctors, .loop .swap, .callFunctor 0, .loop .returnFunctor,
    .loop .leaveDoPendingFunctors, .threadTest (), .threadReturn (), .loop .testQuit] (by decide)

/-- The theorem on this connection, from the close callback on. -/
theorem closeProgress_run_closedByPeer : (closedByPeer.state 7).owners = {.functor, .thread ()} ∧
    ∃ k, 7 ≤ k ∧ ∀ m, k ≤ m → (closedByPeer.state m).conn.channel = ⟨noneEvent, .removed⟩ ∧
      ∀ o ∈ (closedByPeer.state m).owners, ∃ t, o = .thread t ∧
        (closedByPeer.state m).calls t ≠ .idle := by
  have hstays : ∀ n, 16 ≤ n → closedByPeer.state n = closedByPeer.state 16 :=
    fun n hn => Behaviour.ofLabels_state_of_le _ hn
  have hloops : ∀ n, 16 ≤ n → (loops closedByPeer).state n = (loops closedByPeer).state 16 :=
    fun n hn => congrArg ConnectionLoop.loop (hstays n hn)
  have hgoes : Goes closedByPeer := .of_stays hstays
    (.of_stays hloops (by decide) (by decide) (by decide) (by decide)) (by decide) (by decide)
  have hin : ∀ m, (closedByPeer.state m).loop.pc ≠ .outside ∧
      (closedByPeer.state m).fault = none := by
    intro m
    by_cases hm : m < 16
    · revert m
      decide
    · rw [hstays m (by omega)]
      decide
  refine ⟨by decide, ?_⟩
  refine (closeProgress_run initial_start (fun _ => hgoes) (n := 7) (fun m _ => (hin m).1)
    (by decide)).resolve_right ?_
  exact fun ⟨k, hk⟩ => hk (hin k).2

end ConnectionLoop

end Neconet
