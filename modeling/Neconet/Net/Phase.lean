import Neconet.Net.TcpConnectionRuns

/-!
# The phases of a connection

A connection on a server goes through five phases. What it is like in each, and how its member
functions lead from one to the next, without the server and the loop around it.

* `Phase`, `lifeCycle`: the phases, and the callbacks from beginning to end.
* `Phase.FitsConn`: the connection itself in a phase. `Send`, `ShutDown` and `__HandleWrite` stay in
  it; `__HandleClose`, `ConnectDestroyed` and the removal of the channel lead to the next.
* `View`, `Phase.Fits`: what a server holds about one connection, and how that looks in a phase.
-/

set_option linter.unusedSectionVars false

namespace Neconet

/-! ## The callbacks of a channel -/

/-- The condition under which `HandleEvent` calls the close callback.
Source: `net/CChannel.cpp`, `CChannel::HandleEvent` -/
def HangUp (revents : Events) : Prop := revents &&& pollHup ≠ 0 ∧ ¬ revents &&& pollIn ≠ 0

instance : DecidablePred HangUp := fun revents => by
  unfold HangUp
  infer_instance

/-- The close callback is called under its condition only. -/
theorem hangUp_of_mem {revents : Events} (h : .close ∈ handlersOf revents) : HangUp revents := by
  have h' : revents &&& pollHup ≠ 0 ∧ revents &&& pollIn = 0 := by simpa [handlersOf] using h
  exact ⟨h'.1, not_not.mpr h'.2⟩

/-- The callbacks are called once, in this order. -/
theorem handlersOf_sublist (revents : Events) :
    (handlersOf revents).Sublist [.close, .error, .read, .write] := by
  have hif : ∀ (p : Prop) [Decidable p] (h : Handler), (if p then [h] else []).Sublist [h] := by
    intro p _ h
    split_ifs
    · exact List.Sublist.refl _
    · exact List.nil_sublist _
  exact (((hif _ .close).append (hif _ .error)).append (hif _ .read)).append (hif _ .write)

/-- Behind a callback, neither the close callback nor the same callback is called. -/
theorem not_mem_of_suffix {revents : Events} {h : Handler} {rest : List Handler}
    (hsuffix : h :: rest <:+ handlersOf revents) : .close ∉ rest ∧ h ∉ rest := by
  have hall : List.Pairwise (fun a b => b ≠ Handler.close ∧ a ≠ b)
      [.close, .error, .read, .write] := by decide
  have hpair := hall.sublist (hsuffix.sublist.trans (handlersOf_sublist revents))
  obtain ⟨hrest, -⟩ := List.pairwise_cons.mp hpair
  exact ⟨fun hmem => (hrest _ hmem).1 rfl, fun hmem => (hrest _ hmem).2 rfl⟩

/-! ## Phases -/

/-- The phases of a connection. -/
inductive Phase
  /-- Not accepted yet. -/
  | unborn
  /-- Accepted, and not closed. -/
  | established
  /-- Closed; `ConnectDestroyed` is queued. -/
  | closed
  /-- In the callback of `ConnectDestroyed`. -/
  | destroying
  /-- `ConnectDestroyed` has run. -/
  | gone
  deriving DecidableEq, Repr

/-- The callbacks of a connection from beginning to end, `k` of them with a message. -/
def lifeCycle (k : ℕ) : List Callback :=
  .connection true :: (List.replicate k .message ++ [.close, .connection false])

/-- The callbacks up to the phase, `k` of them with a message. -/
def Phase.callbacks (k : ℕ) : Phase → List Callback
  | unborn => []
  | established => .connection true :: List.replicate k .message
  | closed => .connection true :: (List.replicate k .message ++ [.close])
  | destroying => lifeCycle k
  | gone => lifeCycle k

/-- In every phase, the callbacks are the beginning of a life cycle. -/
theorem Phase.callbacks_prefix (p : Phase) (k : ℕ) : p.callbacks k <+: lifeCycle k := by
  cases p with
  | unborn => exact List.nil_prefix
  | established => exact ⟨[.close, .connection false], rfl⟩
  | closed => exact ⟨[.connection false], by simp [callbacks, lifeCycle]⟩
  | destroying | gone => exact List.prefix_refl _

/-- The connection as it is in the phase. -/
def Phase.FitsConn (c : CTcpConnection) : Phase → Prop
  | unborn => c = .new
  | established => (c.state = .eConnected ∨ c.state = .eDisconnecting) ∧ c.channel.watch.IsRegistered
  | closed => (c.state = .eConnected ∨ c.state = .eDisconnecting) ∧ c.channel.watch = .muted
  | destroying => c.state = .eDisconnected ∧ c.channel = ⟨noneEvent, .muted⟩
  | gone => c.state = .eDisconnected ∧ c.channel.watch = .removed

namespace Phase.FitsConn

variable {p : Phase} {c c' : CTcpConnection}

/-- Only state and channel matter, once the connection is there. -/
theorem congr (h : p.FitsConn c) (hborn : p ≠ .unborn) (hstate : c'.state = c.state)
    (hchannel : c'.channel = c.channel) : p.FitsConn c' := by
  cases p with
  | unborn => exact absurd rfl hborn
  | established | closed | destroying | gone =>
      unfold FitsConn at h ⊢
      rw [hstate, hchannel]
      exact h

/-- Only the channel of an established connection is watched. -/
theorem eq_established (h : p.FitsConn c) (hwatch : c.channel.watch = .watched) :
    p = .established := by
  cases p with
  | established => rfl
  | unborn =>
      rw [show c = .new from h] at hwatch
      cases hwatch
  | closed | gone =>
      rw [h.2] at hwatch
      cases hwatch
  | destroying =>
      rw [h.2] at hwatch
      cases hwatch

/-- The connection is established, or closed. -/
theorem up_of_eConnected (h : p.FitsConn c) (hstate : c.state = .eConnected) :
    p = .established ∨ p = .closed := by
  cases p with
  | established => exact Or.inl rfl
  | closed => exact Or.inr rfl
  | unborn =>
      rw [show c = .new from h] at hstate
      cases hstate
  | destroying | gone =>
      rw [h.1] at hstate
      cases hstate

/-- A change of interest does not take an established or closed connection out of its phase. -/
theorem changeInterest (h : p.FitsConn c) (hp : p = .established ∨ p = .closed) (op : InterestOp) :
    ∃ ch, c.channel.changeInterest op = .ok ch ∧ p.FitsConn { c with channel := ch } := by
  rcases hp with rfl | rfl
  · obtain ⟨ch, hok, hreg, -⟩ := WatchedChannel.changeInterest_of_isRegistered h.2 op
    exact ⟨ch, hok, h.1, hreg⟩
  · refine ⟨⟨op.apply c.channel.events, .muted⟩, ?_, h.1, rfl⟩
    simp [WatchedChannel.changeInterest, h.2, Watch.update, pure, Except.pure]

/-- `Send` returns in every phase. -/
theorem send (h : p.FitsConn c) (rMessage : List Byte) (result : ℤ) :
    ∃ c', c.send rMessage result = .ok c' ∧ p.FitsConn c' := by
  by_cases hstate : c.state = .eConnected
  · have hp := h.up_of_eConnected hstate
    have hborn : p ≠ .unborn := by rcases hp with rfl | rfl <;> nofun
    have hwritten : p.FitsConn (c.written rMessage result) := h.congr hborn rfl rfl
    rw [CTcpConnection.send_of_eConnected hstate, CTcpConnection.sendInLoop_eq]
    split_ifs with hleft
    · obtain ⟨ch, hok, hfits⟩ := hwritten.changeInterest hp .setEnableReading
      have hok' : c.channel.setEnableReading = .ok ch := hok
      exact ⟨_, by rw [hok']; rfl, hfits⟩
    · exact ⟨_, rfl, hwritten⟩
  · exact ⟨c, ConnectionOver.send_of_ne hstate, h⟩

/-- `ShutDown` does not take a connection out of its phase. -/
theorem shutDown (h : p.FitsConn c) : p.FitsConn c.shutDown := by
  by_cases hstate : c.state = .eConnected
  · rw [CTcpConnection.shutDown, ConnectionOver.shutDown_of_eConnected hstate,
      ConnectionOver.shutdownInLoop_eq]
    rcases h.up_of_eConnected hstate with rfl | rfl
    · exact ⟨Or.inr rfl, h.2⟩
    · exact ⟨Or.inr rfl, h.2⟩
  · rw [CTcpConnection.shutDown_of_ne hstate]
    exact h

/-- `__HandleWrite` returns, if the kernel does not take more than there is. -/
theorem handleWrite (h : p.FitsConn c) (hp : p = .established ∨ p = .closed) {n : ℤ}
    (hn : n ≤ c.outputBuffer.length) : ∃ c', c.handleWrite n = .ok c' ∧ p.FitsConn c' := by
  have hborn : p ≠ .unborn := by rcases hp with rfl | rfl <;> nofun
  have hretrieve : CTcpConnection.ops.retrieve c.outputBuffer n.toNat =
      .ok (c.outputBuffer.drop n.toNat) :=
    bind_eq_ok_iff.mpr ⟨(), check_of (by omega), rfl⟩
  obtain ⟨ch, hok, hfits⟩ := h.changeInterest hp .disableWriting
  obtain ⟨c', hc'⟩ := ConnectionOver.handleWrite_of CTcpConnection.ops hretrieve hok
  refine ⟨c', hc', ?_⟩
  obtain rfl | ⟨b, channel, shutdowns, -, rfl | hchannel, rfl⟩ := ConnectionOver.handleWrite_ok hc'
  · exact h
  · exact h.congr hborn rfl rfl
  · obtain rfl : ch = channel := Except.ok.inj (hok.symm.trans hchannel)
    exact hfits.congr hborn rfl rfl

/-- `__HandleClose` of an established connection returns, and calls the close callback. -/
theorem handleClose (h : established.FitsConn c) :
    ∃ c', c.handleClose = .ok (c', .close) ∧ closed.FitsConn c' := by
  exact ⟨_, ConnectionOver.handleClose_of h.1 (WatchedChannel.disableAll_of_isRegistered h.2), h.1,
    rfl⟩

/-- `ConnectDestroyed` of a closed connection gets to its callback. -/
theorem connectDestroyed (h : closed.FitsConn c) :
    ∃ c', c.connectDestroyed = .ok (c', .connection false) ∧ destroying.FitsConn c' := by
  have hreg : c.channel.watch.IsRegistered := h.2 ▸ trivial
  exact ⟨_, ConnectionOver.connectDestroyed_of h.1 (WatchedChannel.disableAll_of_isRegistered hreg),
    rfl, rfl⟩

/-- `ConnectDestroyed` returns after its callback. -/
theorem removeChannel (h : destroying.FitsConn c) :
    ∃ c', c.removeChannel = .ok c' ∧ gone.FitsConn c' := by
  have hremove : c.channel.remove = .ok ⟨noneEvent, .removed⟩ := by
    rw [h.2]
    rfl
  exact ⟨_, ConnectionOver.removeChannel_of hremove, h.1, rfl⟩

end Phase.FitsConn

/-! ## What the system holds about one connection -/

/-- What the system holds about one connection. -/
structure View where
  /-- It has been accepted. -/
  born : Bool
  /-- `m_mConnectionMap` holds it under its name. -/
  mapped : Bool
  /-- How often its `ConnectDestroyed` is queued. -/
  queued : ℕ
  /-- Its `ConnectDestroyed` is in its callback. -/
  destroying : Bool
  /-- Its channel is among those that have not been handled. -/
  reported : Bool
  /-- `m_nREvents` and the callbacks left in `HandleEvent` of its channel, if that runs. -/
  current : Option (Events × List Handler)
  /-- The connection. -/
  conn : CTcpConnection
  /-- The callbacks so far. -/
  callbacks : List Callback

/-- The callbacks of the channel that may be left in the phase. -/
def Phase.FitsEvent (revents : Events) (rest : List Handler) : Phase → Prop
  | established => True
  | closed => .close ∉ rest ∧ (.read ∈ rest → HangUp revents)
  | _ => False

/-- A handler runs for an established connection or, behind the close, for a closed one. -/
theorem Phase.FitsEvent.up {p : Phase} {revents : Events} {rest : List Handler}
    (h : p.FitsEvent revents rest) : p = .established ∨ p = .closed := by
  cases p with
  | established => exact Or.inl rfl
  | closed => exact Or.inr rfl
  | unborn | destroying | gone => exact h.elim

/-- What may be left stays so when the next callback is called. -/
theorem Phase.FitsEvent.tail {p : Phase} {revents : Events} {hd : Handler} {rest : List Handler}
    (h : p.FitsEvent revents (hd :: rest)) : p.FitsEvent revents rest := by
  rcases h.up with rfl | rfl
  · trivial
  · exact ⟨fun hmem => h.1 (List.mem_cons_of_mem _ hmem),
      fun hmem => h.2 (List.mem_cons_of_mem _ hmem)⟩

/-- What the system holds about a connection in the phase. -/
structure Phase.Fits (p : Phase) (v : View) : Prop where
  /-- A connection is born when it is accepted. -/
  born_iff : v.born = true ↔ p ≠ .unborn
  /-- The map holds the established connections. -/
  mapped_iff : v.mapped = true ↔ p = .established
  /-- `ConnectDestroyed` is queued for the closed connections, once. -/
  queued_eq : v.queued = if p = .closed then 1 else 0
  /-- Being destroyed is a phase. -/
  destroying_iff : v.destroying = true ↔ p = .destroying
  /-- Only established connections wait for `HandleEvent`. -/
  reported_imp : v.reported = true → p = .established ∧ v.current = none
  /-- `HandleEvent` runs for an established connection, or goes on after the close. -/
  current_imp : ∀ revents rest, v.current = some (revents, rest) →
    rest <:+ handlersOf revents ∧ p.FitsEvent revents rest
  /-- The connection is as it should be. -/
  conn_fits : p.FitsConn v.conn
  /-- The callbacks are those up to the phase. -/
  callbacks_eq : ∃ k, v.callbacks = p.callbacks k

namespace Phase.Fits

variable {p : Phase} {v : View} {conn : CTcpConnection} {revents : Events} {rest : List Handler}

/-- A member function has returned and called back, and the connection is in the same phase. -/
theorem record (h : p.Fits v) {callbacks : List Callback} (hconn : p.FitsConn conn)
    (hcallbacks : ∃ k, v.callbacks ++ callbacks = p.callbacks k) :
    p.Fits { v with conn := conn, callbacks := v.callbacks ++ callbacks } :=
  { h with conn_fits := hconn, callbacks_eq := hcallbacks }

/-- A member function has returned without a callback. -/
theorem record_nil (h : p.Fits v) (hconn : p.FitsConn conn) :
    p.Fits { v with conn := conn, callbacks := v.callbacks ++ [] } :=
  h.record hconn (by rw [List.append_nil]; exact h.callbacks_eq)

/-- A message has arrived. -/
theorem message (h : established.Fits v) (hconn : established.FitsConn conn) :
    established.Fits { v with conn := conn, callbacks := v.callbacks ++ [.message] } := by
  refine h.record hconn ?_
  obtain ⟨k, hk⟩ := h.callbacks_eq
  refine ⟨k + 1, ?_⟩
  rw [hk, Phase.callbacks, Phase.callbacks, List.replicate_succ', List.cons_append]

/-- `HandleEvent` begins, or calls the next callback. -/
theorem setCurrent (h : p.Fits v) (hreported : v.reported = false)
    (hsuffix : rest <:+ handlersOf revents) (hevent : p.FitsEvent revents rest) :
    p.Fits { v with current := some (revents, rest) } :=
  { h with
    reported_imp := fun hrep => absurd (hreported.symm.trans hrep) (by decide)
    current_imp := fun revents' rest' hcur => by
      cases hcur
      exact ⟨hsuffix, hevent⟩ }

/-- A connection whose channel is being handled does not wait to be. -/
theorem reported_eq (h : p.Fits v) (hcurrent : v.current = some (revents, rest)) :
    v.reported = false := by
  by_contra hrep
  rw [(h.reported_imp (Bool.not_eq_false _ ▸ hrep)).2] at hcurrent
  cases hcurrent

/-- **The close callback** takes an established connection into the next phase. -/
theorem close (h : established.Fits v) (hcurrent : v.current = some (revents, rest))
    (hclose : .close ∉ rest) (hread : .read ∈ rest → HangUp revents)
    (hconn : closed.FitsConn conn) :
    closed.Fits { v with
      conn := conn
      callbacks := v.callbacks ++ [.close]
      mapped := false
      queued := v.queued + 1 } where
  born_iff := ⟨fun _ => nofun, fun _ => h.born_iff.mpr nofun⟩
  mapped_iff := ⟨nofun, nofun⟩
  queued_eq := by rw [h.queued_eq]; rfl
  destroying_iff := ⟨fun hd => (nomatch h.destroying_iff.mp hd), nofun⟩
  reported_imp := fun hrep => absurd ((h.reported_eq hcurrent).symm.trans hrep) (by decide)
  current_imp := fun revents' rest' hcur => by
    obtain ⟨hsuffix, -⟩ := h.current_imp revents rest hcurrent
    cases hcurrent.symm.trans hcur
    exact ⟨hsuffix, hclose, hread⟩
  conn_fits := hconn
  callbacks_eq := by
    obtain ⟨k, hk⟩ := h.callbacks_eq
    exact ⟨k, by rw [hk]; rfl⟩

/-- **`__NewConnection`** makes an established connection. -/
theorem accept (h : unborn.Fits v) : established.Fits { v with
    born := true
    mapped := true
    conn := .established
    callbacks := [.connection true] } where
  born_iff := ⟨fun _ => nofun, fun _ => rfl⟩
  mapped_iff := ⟨fun _ => rfl, fun _ => rfl⟩
  queued_eq := h.queued_eq
  destroying_iff := ⟨fun hd => (nomatch h.destroying_iff.mp hd), nofun⟩
  reported_imp := fun hrep => nomatch (h.reported_imp hrep).1
  current_imp := fun revents rest hcur => (h.current_imp revents rest hcur).2.elim
  conn_fits := ⟨Or.inl rfl, trivial⟩
  callbacks_eq := ⟨0, rfl⟩

/-- **`ConnectDestroyed`** gets to its callback. -/
theorem destroy (h : closed.Fits v) (hcurrent : v.current = none)
    (hconn : Phase.destroying.FitsConn conn) :
    Phase.destroying.Fits { v with
      conn := conn
      callbacks := v.callbacks ++ [.connection false]
      queued := v.queued - 1
      destroying := true } where
  born_iff := ⟨fun _ => nofun, fun _ => h.born_iff.mpr nofun⟩
  mapped_iff := ⟨fun hm => (nomatch h.mapped_iff.mp hm), nofun⟩
  queued_eq := by rw [h.queued_eq]; rfl
  destroying_iff := ⟨fun _ => rfl, fun _ => rfl⟩
  reported_imp := fun hrep => nomatch (h.reported_imp hrep).1
  current_imp := fun revents rest hcur => nomatch hcurrent.symm.trans hcur
  conn_fits := hconn
  callbacks_eq := by
    obtain ⟨k, hk⟩ := h.callbacks_eq
    exact ⟨k, by rw [hk]; simp [callbacks, lifeCycle]⟩

/-- `ConnectDestroyed` returns. -/
theorem remove (h : Phase.destroying.Fits v) (hconn : gone.FitsConn conn) :
    gone.Fits { v with
      conn := conn
      callbacks := v.callbacks ++ []
      destroying := false } where
  born_iff := ⟨fun _ => nofun, fun _ => h.born_iff.mpr nofun⟩
  mapped_iff := ⟨fun hm => (nomatch h.mapped_iff.mp hm), nofun⟩
  queued_eq := h.queued_eq
  destroying_iff := ⟨nofun, nofun⟩
  reported_imp := fun hrep => nomatch (h.reported_imp hrep).1
  current_imp := fun revents rest hcur => (h.current_imp revents rest hcur).2.elim
  conn_fits := hconn
  callbacks_eq := by
    rw [List.append_nil]
    exact h.callbacks_eq

/-- `HandleEvent` ends. -/
theorem handled (h : p.Fits v) : p.Fits { v with current := none } :=
  { h with
    reported_imp := fun hrep => ⟨(h.reported_imp hrep).1, rfl⟩
    current_imp := nofun }

end Phase.Fits

end Neconet
