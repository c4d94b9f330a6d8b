import Neconet.Net.Phase
import Neconet.Net.TcpServer

/-!
# The life cycle of connections

Do the callbacks of every connection come in the order connected, messages, close, disconnected?

* `ServerLoop.view`: what the system holds about one connection.
* `Action.Orderly`: a name is given out again only after its connection has closed, and a read
  behind a close in the same `HandleEvent` fails.
* `LifeInv`: every connection is in a phase. `LifeInv.run`: every orderly step goes without a fault,
  and keeps it.
* `lifeCycle_run`: along such steps, the callbacks of every connection follow the life cycle, and
  no assertion fails.
* `not_lifeCycle_hup_pri`: `POLLHUP` with `POLLPRI` closes a connection and then reads from it.
-/

set_option linter.unusedSectionVars false

namespace Neconet

open Transition

namespace ServerLoop

variable {T : Type} [DecidableEq T] {s s' : ServerLoop T} {i j : ℕ}

/-- What the system holds about the connection `i`. -/
def view (s : ServerLoop T) (i : ℕ) : View where
  born := decide (i < s.created)
  mapped := s.server.connectionMap.lookup (s.conns i).name == some i
  queued := s.loop.queue.count (.connectDestroyed i)
  destroying := s.destroying == some i
  reported := decide (i ∈ s.active.map Prod.fst)
  current := (s.current.filter fun e => e.conn = i).map fun e => (e.revents, e.rest)
  conn := (s.conns i).conn
  callbacks := (s.conns i).callbacks

theorem view_record_self (s : ServerLoop T) (i : ℕ) (conn : CTcpConnection)
    (callbacks : List Callback) : (s.record i conn callbacks).view i =
      { s.view i with conn := conn, callbacks := (s.view i).callbacks ++ callbacks } := by
  have hself : (s.record i conn callbacks).conns i = { s.conns i with
      conn := conn
      callbacks := (s.conns i).callbacks ++ callbacks } := Function.update_self ..
  unfold view
  rw [hself]
  rfl

theorem view_record_of_ne (s : ServerLoop T) (h : j ≠ i) (conn : CTcpConnection)
    (callbacks : List Callback) : (s.record i conn callbacks).view j = s.view j := by
  have hother : (s.record i conn callbacks).conns j = s.conns j := Function.update_of_ne h ..
  unfold view
  rw [hother]
  rfl

/-- The close callback takes the connection out of the map and queues its `ConnectDestroyed`. -/
theorem removeConnection_of_mapped (h : (s.view i).mapped = true) :
    ∃ s', s.removeConnection i = .ok s' ∧
      s'.view i = { s.view i with mapped := false, queued := (s.view i).queued + 1 } ∧
      (∀ j, j ≠ i → s'.view j = s.view j) ∧
      s' = { s with
        server := s'.server
        loop := (CEventLoop.Action.queueInLoop (.connectDestroyed i)).next s.loop } := by
  have hlookup : s.server.connectionMap.lookup (s.conns i).name = some i := eq_of_beq h
  have hmem : (s.conns i).name ∈ s.server.connectionMap :=
    AList.lookup_isSome.mp (by rw [hlookup]; rfl)
  refine ⟨{ s with
    server := { s.server with
      connectionMap := s.server.connectionMap.erase (s.conns i).name }
    loop := (CEventLoop.Action.queueInLoop (.connectDestroyed i)).next s.loop }, ?_, ?_,
    fun j hj => ?_, rfl⟩
  · simp [removeConnection, CTcpServer.removeConnection, check_of hmem, pure, Except.pure]
  · simp [view, CEventLoop.queue, CEventLoop.Action.next, CEventLoop.push, ← List.append_assoc]
  · have hmap : (s.server.connectionMap.erase (s.conns i).name).lookup (s.conns j).name = some j ↔
        s.server.connectionMap.lookup (s.conns j).name = some j := by
      by_cases hname : (s.conns j).name = (s.conns i).name
      · rw [hname, hlookup, AList.lookup_erase]
        simp [Ne.symm hj]
      · rw [AList.lookup_erase_ne hname]
    simp [view, hmap, CEventLoop.queue, CEventLoop.Action.next, CEventLoop.push,
      ← List.append_assoc, List.count_append, Ne.symm hj]

/-- `__NewConnection` sets up one connection. Under a name that is not in the map, it leaves the
others alone. -/
theorem acceptConnection_of_not_mem (h : s.server.connName ∉ s.server.connectionMap) :
    ∃ s', s.acceptConnection = .ok s' ∧
      s'.view s.created = { s.view s.created with
        born := true
        mapped := true
        conn := .established
        callbacks := [.connection true] } ∧
      (∀ j, j ≠ s.created → s'.view j = s.view j) ∧
      s' = { s with server := s'.server, created := s.created + 1, conns := s'.conns } := by
  set c : Connection :=
    { name := s.server.connName, conn := .established, callbacks := [.connection true] } with hc
  set conns := Function.update s.conns s.created c with hconns
  refine ⟨{ s with
    server := s.server.newConnection s.created
    created := s.created + 1
    conns := conns }, rfl, ?_, fun j hj => ?_, rfl⟩
  · have hself : conns s.created = c := Function.update_self ..
    have hmap : (s.server.newConnection s.created).connectionMap.lookup c.name = some s.created :=
      AList.lookup_insert _
    unfold view
    dsimp only
    rw [hself, hmap]
    simp [hc]
  · have hother : conns j = s.conns j := Function.update_of_ne hj ..
    have hmap : (s.server.newConnection s.created).connectionMap.lookup (s.conns j).name = some j ↔
        s.server.connectionMap.lookup (s.conns j).name = some j := by
      by_cases hname : (s.conns j).name = s.server.connName
      · rw [hname, CTcpServer.newConnection, AList.lookup_insert, AList.lookup_eq_none.mpr h]
        simp [Ne.symm hj]
      · rw [CTcpServer.newConnection, AList.lookup_insert_ne hname]
    have hborn : j < s.created + 1 ↔ j < s.created := by omega
    unfold view
    dsimp only
    rw [hother]
    simp [hmap, hborn]

theorem view_current_self (s : ServerLoop T) (e : HandleEvent) :
    { s with current := some e }.view e.conn =
      { s.view e.conn with current := some (e.revents, e.rest) } := by
  simp [view]

theorem view_current_of_ne (s : ServerLoop T) {e : HandleEvent} (hj : j ≠ e.conn)
    (h : ∀ e' ∈ s.current, e'.conn = e.conn) :
    { s with current := some e }.view j = s.view j := by
  have hnone : (s.current.filter fun e => e.conn = j) = none := by
    rw [Option.filter_eq_none_iff]
    intro e' he' hconn
    exact hj ((of_decide_eq_true hconn).symm.trans (h e' he'))
  unfold view
  rw [hnone]
  simp [Ne.symm hj]

/-! ## The invariant -/

/-- The name that is given to a connection is not in the map, and a read behind a close in the same
`HandleEvent` fails. -/
def Action.Orderly (s : ServerLoop T) : Action T → Prop
  | newConnection => s.server.connName ∉ s.server.connectionMap
  | handler result _ => ∀ e ∈ s.current, e.rest.head? = some .read → HangUp e.revents →
      result = .error
  | _ => True

instance (s : ServerLoop T) : ∀ a : Action T, Decidable (a.Orderly s)
  | .newConnection => inferInstanceAs (Decidable (s.server.connName ∉ s.server.connectionMap))
  | .handler result _ => inferInstanceAs (Decidable (∀ e ∈ s.current,
      e.rest.head? = some .read → HangUp e.revents → result = .error))
  | .loop _ | .poll .. | .handleEvent | .handled | .callFunctor | .removeChannel | .send ..
  | .shutDown _ => isTrue trivial

/-- Every connection is in a phase. -/
structure LifeInv (s : ServerLoop T) : Prop where
  /-- The flags of the loop agree with the position of the loop thread. -/
  control : s.loop.ControlInv
  /-- No assertion has failed. -/
  fault_eq : s.fault = none
  /-- No channel is reported twice. -/
  nodup : (s.active.map Prod.fst).Nodup
  /-- There are active channels while they are handled. -/
  handling : s.active ≠ [] ∨ s.current ≠ none → s.loop.pc = .handling
  /-- `ConnectDestroyed` is in its callback inside a functor. -/
  inFunctor : s.destroying ≠ none → s.loop.pc = .inFunctor
  /-- Every connection is in a phase. -/
  fits : ∀ i, ∃ p : Phase, p.Fits (s.view i)

/-- A new server meets the invariant. -/
theorem lifeInv_new (sName : List Char) : (new sName : ServerLoop T).LifeInv where
  control := CEventLoop.controlInv_new
  fault_eq := rfl
  nodup := List.nodup_nil
  handling h := by simp [new] at h
  inFunctor h := absurd rfl h
  fits i := ⟨.unborn, ⟨by simp [view, new], by simp [view, new, CTcpServer.new], rfl,
    by simp [view, new], by simp [view, new], nofun, rfl, 0, rfl⟩⟩

namespace LifeInv

/-- Outside the handlers, there are no active channels. -/
theorem idle (h : s.LifeInv) (hpc : s.loop.pc ≠ .handling) : s.active = [] ∧ s.current = none := by
  by_contra hbusy
  exact hpc (h.handling (not_and_or.mp hbusy))

/-- Outside the functors, no connection is being destroyed. -/
theorem destroying_eq (h : s.LifeInv) (hpc : s.loop.pc ≠ .inFunctor) : s.destroying = none := by
  by_contra hd
  exact hpc (h.inFunctor hd)

/-- A step that concerns one connection leaves the others in their phases. -/
theorem fits_of (h : s.LifeInv) (hothers : ∀ j, j ≠ i → s'.view j = s.view j) {p : Phase}
    (hself : p.Fits (s'.view i)) (j : ℕ) : ∃ p : Phase, p.Fits (s'.view j) := by
  by_cases hj : j = i
  · subst hj
    exact ⟨p, hself⟩
  · rw [hothers j hj]
    exact h.fits j

/-- A member function of a connection has returned. -/
theorem record (h : s.LifeInv) {conn : CTcpConnection} {callbacks : List Callback} {p : Phase}
    (hself : p.Fits ((s.record i conn callbacks).view i)) :
    (s.record i conn callbacks).LifeInv where
  control := h.control
  fault_eq := h.fault_eq
  nodup := h.nodup
  handling := h.handling
  inFunctor := h.inFunctor
  fits := h.fits_of (fun _ hj => view_record_of_ne s hj conn callbacks) hself

/-- A member function of a connection has returned without a callback. -/
theorem record_nil (h : s.LifeInv) {conn : CTcpConnection} {p : Phase} (hp : p.Fits (s.view i))
    (hconn : p.FitsConn conn) : (s.record i conn []).LifeInv := by
  refine h.record (p := p) ?_
  rw [view_record_self]
  exact hp.record_nil hconn

/-- A step of the loop that is not about the connections keeps the invariant. -/
theorem loopStep (h : s.LifeInv) {b : CEventLoop.Action ServerFunctor T} (hen : b.Enabled s.loop)
    (hforeign : s.Foreign b) : { s with loop := b.next s.loop }.LifeInv := by
  have hst : CEventLoop.Step s.loop b _ := ⟨hen, rfl⟩
  have hcall : b.isCall = false := by
    cases b <;> first | rfl | exact hforeign.elim
  have hpushed : ∀ f ∈ b.pushed.toList, f = .other := by
    intro f hf
    cases b with
    | queueInLoop cb => simpa [CEventLoop.Action.pushed, show cb = .other from hforeign] using hf
    | threadQueueInLoop t cb =>
        simpa [CEventLoop.Action.pushed, show cb = .other from hforeign] using hf
    | _ => simp [CEventLoop.Action.pushed] at hf
  obtain ⟨-, hqueue⟩ := h.control.queue_step hst hcall
  have hview : ∀ i, { s with loop := b.next s.loop }.view i = s.view i := by
    intro i
    have hcount : (b.next s.loop).queue.count (.connectDestroyed i) =
        s.loop.queue.count (.connectDestroyed i) := by
      have hzero : b.pushed.toList.count (.connectDestroyed i) = 0 :=
        List.count_eq_zero.mpr fun hmem => by cases hpushed _ hmem
      rw [hqueue, List.count_append, hzero, Nat.add_zero]
    unfold view
    rw [hcount]
  refine ⟨h.control.step _ _ _ hst, h.fault_eq, h.nodup, fun hbusy => ?_, fun hd => ?_,
    fun i => by rw [hview]; exact h.fits i⟩
  · refine CEventLoop.pc_of_handling hen (h.handling hbusy) ?_
    rintro rfl
    exact hbusy.elim (· hforeign.1) (· hforeign.2)
  · refine CEventLoop.pc_of_inFunctor hen (h.inFunctor hd) ?_
    rintro rfl
    exact hd hforeign

/-- What `poll` reports keeps the invariant. -/
theorem poll (h : s.LifeInv) {readable : Bool} {active : List (ℕ × Events)}
    (hen : (CEventLoop.Action.poll readable).Enabled s.loop)
    (hnodup : (active.map Prod.fst).Nodup) (hreports : ∀ e ∈ active, s.Reports e.1 e.2) :
    { s with
      loop := (CEventLoop.Action.poll readable).next s.loop
      active := active }.LifeInv := by
  have hst : CEventLoop.Step s.loop (.poll readable) _ := ⟨hen, rfl⟩
  have hcurrent : s.current = none := (h.idle (by rw [hen.1]; decide)).2
  have hdestroying : s.destroying = none := h.destroying_eq (by rw [hen.1]; decide)
  refine ⟨h.control.step _ _ _ hst, h.fault_eq, hnodup, fun _ => rfl,
    fun hd => absurd hdestroying hd, fun i => ?_⟩
  obtain ⟨p, hp⟩ := h.fits i
  refine ⟨p, { hp with reported_imp := fun hrep => ?_ }⟩
  obtain ⟨e, he, rfl⟩ := List.mem_map.mp (of_decide_eq_true hrep)
  refine ⟨hp.conn_fits.eq_established (hreports e he).1, ?_⟩
  simp [view, hcurrent]

/-- A new connection under a new name keeps the invariant. -/
theorem acceptConnection (h : s.LifeInv) (hname : s.server.connName ∉ s.server.connectionMap) :
    ∃ s', s.acceptConnection = .ok s' ∧ s'.LifeInv := by
  obtain ⟨s', hok, hself, hothers, hs'⟩ := acceptConnection_of_not_mem hname
  obtain ⟨p, hp⟩ := h.fits s.created
  have hunborn : p = .unborn := by
    by_contra hne
    exact absurd (of_decide_eq_true (hp.born_iff.mpr hne)) (lt_irrefl _)
  subst hunborn
  have hfits : Phase.established.Fits (s'.view s.created) := by
    rw [hself]
    exact hp.accept
  refine ⟨s', hok, ?_, ?_, ?_, ?_, ?_, h.fits_of hothers hfits⟩
  all_goals rw [hs']
  · exact h.control
  · exact h.fault_eq
  · exact h.nodup
  · exact h.handling
  · exact h.inFunctor

/-- The beginning of a call of `HandleEvent` keeps the invariant. -/
theorem handleEvent (h : s.LifeInv) (hin : s.InHandling) (hcurrent : s.current = none)
    {revents : Events} {active : List (ℕ × Events)} (hactive : s.active = (i, revents) :: active) :
    { s with
      active := active
      current := some { conn := i, revents := revents, rest := handlersOf revents } }.LifeInv := by
  have hnodup := h.nodup
  rw [hactive, List.map_cons, List.nodup_cons] at hnodup
  obtain ⟨p, hp⟩ := h.fits i
  have hreported : (s.view i).reported = true := by simp [view, hactive]
  obtain ⟨rfl, -⟩ := hp.reported_imp hreported
  set s' : ServerLoop T := { s with active := active } with hs'
  have hview : ∀ j, s'.view j = { s.view j with reported := decide (j ∈ active.map Prod.fst) } :=
    fun _ => rfl
  have hself' : s'.view i = { s.view i with reported := false } := by
    rw [hview, decide_eq_false hnodup.1]
  have hfits : Phase.established.Fits (s'.view i) := by
    rw [hself']
    exact { hp with reported_imp := nofun }
  refine ⟨h.control, h.fault_eq, hnodup.2, fun _ => hin.1, h.inFunctor,
    h.fits_of (i := i) (p := .established) (fun j hj => ?_) ?_⟩
  · refine (view_current_of_ne s' hj fun e he => ?_).trans ?_
    · exact nomatch hcurrent.symm.trans he
    · have hsame : decide (j ∈ active.map Prod.fst) = (s.view j).reported := by
        simp [view, hactive, hj]
      rw [hview, hsame]
  · rw [view_current_self s' { conn := i, revents := revents, rest := handlersOf revents }]
    exact hfits.setCurrent (by rw [hself']) (List.suffix_refl _) trivial

/-- The close callback of an established connection in its `HandleEvent` keeps the invariant. -/
theorem close (h : s.LifeInv) (hin : s.InHandling) {revents : Events} {rest : List Handler}
    (hp : Phase.established.Fits (s.view i)) (hcurrent : (s.view i).current = some (revents, rest))
    (hclose : .close ∉ rest) (hread : .read ∈ rest → HangUp revents) {conn : CTcpConnection}
    (hconn : Phase.closed.FitsConn conn) :
    ∃ s', (s.record i conn [.close]).removeConnection i = .ok s' ∧ s'.LifeInv := by
  have hview := view_record_self s i conn [.close]
  have hmapped : ((s.record i conn [.close]).view i).mapped = true := by
    rw [hview]
    exact hp.mapped_iff.mpr rfl
  obtain ⟨s', hok, hself, hothers, hs'⟩ := removeConnection_of_mapped hmapped
  have hst : CEventLoop.Step s.loop (.queueInLoop (.connectDestroyed i)) _ :=
    ⟨⟨Or.inl hin.1, hin.2⟩, rfl⟩
  have hfits : Phase.closed.Fits (s'.view i) := by
    rw [hself, hview]
    exact hp.close hcurrent hclose hread hconn
  refine ⟨s', hok, ?_, ?_, ?_, ?_, ?_, h.fits_of (fun j hj => ?_) hfits⟩
  · rw [hs']
    exact h.control.step _ _ _ hst
  · rw [hs']
    exact h.fault_eq
  · rw [hs']
    exact h.nodup
  · rw [hs']
    exact h.handling
  · rw [hs']
    exact h.inFunctor
  · exact (hothers j hj).trans (view_record_of_ne s hj conn _)

/-- A read of an established connection in its `HandleEvent` calls back with a message or, at the
end of the stream, closes. -/
theorem read (h : s.LifeInv) (hin : s.InHandling) {revents : Events} {rest : List Handler}
    (hp : Phase.established.Fits (s.view i)) (hcurrent : (s.view i).current = some (revents, rest))
    (hclose : .close ∉ rest) (hread : .read ∉ rest) (data : List Byte) (n : ℤ) :
    ∃ s', s.runHandler i (.bytes data) n .read = .ok s' ∧ s'.LifeInv := by
  have hfits : Phase.established.FitsConn (s.conns i).conn := hp.conn_fits
  by_cases hdata : 0 < data.length
  · set conn : CTcpConnection :=
      { (s.conns i).conn with inputBuffer := (s.conns i).conn.inputBuffer ++ data } with hconn
    have hmessage : Phase.established.Fits ((s.record i conn [.message]).view i) := by
      rw [view_record_self]
      exact hp.message (hfits.congr nofun rfl rfl)
    refine ⟨s.record i conn [.message], ?_, h.record hmessage⟩
    simp [runHandler, CTcpConnection.handleRead_of_length_pos hdata, hconn, pure, Except.pure]
  · obtain rfl : data = [] := List.length_eq_zero_iff.mp (by omega)
    obtain ⟨conn, hconn, hclosed⟩ := hfits.handleClose
    obtain ⟨s', hs', hinv⟩ := h.close hin hp hcurrent hclose (fun hmem => absurd hmem hread) hclosed
    refine ⟨s', ?_, hinv⟩
    simpa [runHandler, CTcpConnection.handleRead_nil hconn, pure, Except.pure] using hs'

/-- A callback of a channel is about to be called: the invariant holds, and the phase of the
connection admits the callback. -/
theorem nextHandler (h : s.LifeInv) {revents : Events} {hd : Handler} {rest : List Handler}
    (hcurrent : s.current = some { conn := i, revents := revents, rest := hd :: rest }) :
    { s with current := some { conn := i, revents := revents, rest := rest } }.LifeInv ∧
      hd :: rest <:+ handlersOf revents ∧ ∃ p : Phase, p.FitsEvent revents (hd :: rest) ∧
        p.Fits ({ s with
          current := some { conn := i, revents := revents, rest := rest } }.view i) := by
  obtain ⟨p, hp⟩ := h.fits i
  have hview : (s.view i).current = some (revents, hd :: rest) := by simp [view, hcurrent]
  obtain ⟨hsuffix, hevent⟩ := hp.current_imp revents (hd :: rest) hview
  have hself : p.Fits ({ s with
      current := some { conn := i, revents := revents, rest := rest } }.view i) := by
    rw [view_current_self s { conn := i, revents := revents, rest := rest }]
    exact hp.setCurrent (hp.reported_eq hview) ((List.suffix_cons hd rest).trans hsuffix)
      hevent.tail
  refine ⟨⟨h.control, h.fault_eq, h.nodup, fun _ => ?_, h.inFunctor,
    h.fits_of (fun j hj => ?_) hself⟩, hsuffix, p, hevent, hself⟩
  · exact h.handling (Or.inr (by rw [hcurrent]; exact Option.some_ne_none _))
  · refine view_current_of_ne s hj fun e he => ?_
    cases hcurrent.symm.trans he
    rfl

/-- **A callback of a channel** returns and keeps the invariant, if a read behind a close fails. -/
theorem handler (h : s.LifeInv) (hin : s.InHandling) {revents : Events} {hd : Handler}
    {rest : List Handler}
    (hcurrent : s.current = some { conn := i, revents := revents, rest := hd :: rest })
    {result : CTcpConnection.ReadResult} {n : ℤ} (hn : n ≤ (s.conns i).conn.outputBuffer.length)
    (hok : hd = .read → HangUp revents → result = .error) :
    ∃ s', { s with
        current := some { conn := i, revents := revents, rest := rest } }.runHandler i result n hd
        = .ok s' ∧ s'.LifeInv := by
  obtain ⟨hinv, hsuffix, p, hevent, hp⟩ := h.nextHandler hcurrent
  obtain ⟨hclose, hself⟩ := not_mem_of_suffix hsuffix
  set t : ServerLoop T := { s with
    current := some { conn := i, revents := revents, rest := rest } } with ht
  have hcur : (t.view i).current = some (revents, rest) := by simp [view, ht]
  have hfits : p.FitsConn (t.conns i).conn := hp.conn_fits
  cases hd with
  | close =>
      rcases hevent.up with rfl | rfl
      · obtain ⟨conn, hconn, hclosed⟩ := hfits.handleClose
        obtain ⟨s', hs', hinv'⟩ := hinv.close hin hp hcur hclose
          (fun _ => hangUp_of_mem (hsuffix.subset List.mem_cons_self)) hclosed
        exact ⟨s', by rw [runHandler, hconn, ok_bind]; exact hs', hinv'⟩
      · exact absurd List.mem_cons_self hevent.1
  | error => exact ⟨t, rfl, hinv⟩
  | write =>
      obtain ⟨conn, hconn, hfits'⟩ := hfits.handleWrite hevent.up hn
      exact ⟨t.record i conn [], by rw [runHandler, hconn]; rfl, hinv.record_nil hp hfits'⟩
  | read =>
      cases result with
      | error => exact ⟨t.record i (t.conns i).conn [], rfl, hinv.record_nil hp hfits⟩
      | bytes data =>
          -- the close has not run before
          rcases hevent.up with rfl | rfl
          · exact hinv.read hin hp hcur hclose hself data n
          · cases hok rfl (hevent.2 List.mem_cons_self)

/-- The end of `HandleEvent` keeps the invariant. -/
theorem handled (h : s.LifeInv) : { s with current := none }.LifeInv where
  control := h.control
  fault_eq := h.fault_eq
  nodup := h.nodup
  handling := fun hbusy => h.handling (hbusy.imp_right fun hne => absurd rfl hne)
  inFunctor := h.inFunctor
  fits := fun i => by
    obtain ⟨p, hp⟩ := h.fits i
    exact ⟨p, hp.handled⟩

/-- **A functor** gets to its callback or returns, and keeps the invariant. -/
theorem callFunctor (h : s.LifeInv) (hen : (CEventLoop.Action.callFunctor).Enabled s.loop) :
    ∃ s', Action.callFunctor.run s = .ok s' ∧ s'.LifeInv := by
  obtain ⟨hpc, hne⟩ := hen
  obtain ⟨cb, rest, hcons⟩ := List.exists_cons_of_ne_nil hne
  have hst : CEventLoop.Step s.loop .callFunctor _ := ⟨⟨hpc, hne⟩, rfl⟩
  have hidle : s.active = [] ∧ s.current = none := h.idle (by rw [hpc]; decide)
  have hdestroying : s.destroying = none := h.destroying_eq (by rw [hpc]; decide)
  have hqueue : s.loop.queue = cb :: (CEventLoop.Action.callFunctor.next s.loop).queue :=
    (CEventLoop.queue_callFunctor hcons).2
  set t : ServerLoop T := { s with loop := CEventLoop.Action.callFunctor.next s.loop } with ht
  have hview : ∀ j, t.view j = { s.view j with
      queued := (CEventLoop.Action.callFunctor.next s.loop).queue.count (.connectDestroyed j) } :=
    fun _ => rfl
  have hsame : ∀ j, cb ≠ .connectDestroyed j → t.view j = s.view j := by
    intro j hcb
    have hcount : (CEventLoop.Action.callFunctor.next s.loop).queue.count (.connectDestroyed j) =
        (s.view j).queued := by
      change _ = s.loop.queue.count _
      rw [hqueue, List.count_cons_of_ne hcb]
    rw [hview, hcount]
  unfold Action.run
  rw [hcons]
  cases cb with
  | other =>
      exact ⟨t, rfl, h.control.step _ _ _ hst, h.fault_eq, h.nodup,
        fun hbusy => (hbusy.elim (· hidle.1) (· hidle.2)).elim, fun hd => absurd hdestroying hd,
        fun j => by rw [hsame j nofun]; exact h.fits j⟩
  | connectDestroyed i =>
      obtain ⟨p, hp⟩ := h.fits i
      have hqueued : (s.view i).queued = (t.view i).queued + 1 := by
        change s.loop.queue.count _ = _
        rw [hqueue, List.count_cons_self]
        rfl
      obtain rfl : p = .closed := by
        by_contra hne
        rw [hp.queued_eq, if_neg hne] at hqueued
        cases hqueued
      obtain ⟨conn, hconn, hfits⟩ := hp.conn_fits.connectDestroyed
      have hcurrent : (s.view i).current = none := by simp [view, hidle.2]
      set t' := t.record i conn [.connection false] with ht'
      have hview' : ∀ j, { t' with destroying := some i }.view j =
          { t'.view j with destroying := some i == some j } := fun _ => rfl
      have hself : Phase.destroying.Fits ({ t' with destroying := some i }.view i) := by
        rw [hview', ht', view_record_self, hview]
        have hnext : (CEventLoop.Action.callFunctor.next s.loop).queue.count
            (.connectDestroyed i) = (s.view i).queued - 1 := by
          rw [hqueued]
          rfl
        rw [hnext, beq_self_eq_true]
        exact hp.destroy hcurrent hfits
      refine ⟨{ t' with destroying := some i }, bind_eq_ok_iff.mpr ⟨_, hconn, rfl⟩,
        h.control.step _ _ _ hst, h.fault_eq, h.nodup,
        fun hbusy => (hbusy.elim (· hidle.1) (· hidle.2)).elim, fun _ => rfl,
        h.fits_of (fun j hj => ?_) hself⟩
      have hnone : (some i == some j) = (s.view j).destroying := by
        simp [view, hdestroying, Ne.symm hj]
      rw [hview', ht', view_record_of_ne t hj, hsame j fun heq => hj (by cases heq; rfl), hnone]

/-- The end of `ConnectDestroyed` keeps the invariant. -/
theorem removeChannel (h : s.LifeInv) (hdestroying : s.destroying ≠ none) :
    ∃ s', Action.removeChannel.run s = .ok s' ∧ s'.LifeInv := by
  obtain ⟨i, hi⟩ := Option.ne_none_iff_exists'.mp hdestroying
  obtain ⟨p, hp⟩ := h.fits i
  obtain rfl : p = .destroying := hp.destroying_iff.mp (by simp [view, hi])
  obtain ⟨conn, hconn, hfits⟩ := hp.conn_fits.removeChannel
  set t := s.record i conn [] with ht
  have hview : ∀ j, { t with destroying := none }.view j =
      { t.view j with destroying := false } := fun _ => rfl
  have hself : Phase.gone.Fits ({ t with destroying := none }.view i) := by
    rw [hview, ht, view_record_self]
    exact hp.remove hfits
  refine ⟨{ t with destroying := none }, ?_, h.control, h.fault_eq, h.nodup, h.handling,
    fun hd => absurd rfl hd, h.fits_of (fun j hj => ?_) hself⟩
  · unfold Action.run
    rw [hi]
    exact bind_eq_ok_iff.mpr ⟨conn, hconn, rfl⟩
  · have hnone : false = (s.view j).destroying := by simp [view, hi, Ne.symm hj]
    rw [hview, ht, view_record_of_ne s hj, hnone]

/-- **Every orderly step** goes without a fault and keeps the invariant. -/
theorem run (h : s.LifeInv) {a : Action T} (hpossible : a.Possible s) (hok : a.Orderly s) :
    ∃ s', a.run s = .ok s' ∧ s'.LifeInv := by
  cases a with
  | loop b => exact ⟨_, rfl, h.loopStep hpossible.1 hpossible.2⟩
  | poll readable active => exact ⟨_, rfl, h.poll hpossible.1 hpossible.2.1 hpossible.2.2⟩
  | newConnection => exact h.acceptConnection hok
  | handleEvent =>
      obtain ⟨hin, hcurrent, hne⟩ := hpossible
      obtain ⟨⟨i, revents⟩, active, hactive⟩ := List.exists_cons_of_ne_nil hne
      unfold Action.run
      rw [hactive]
      exact ⟨_, rfl, h.handleEvent hin hcurrent hactive⟩
  | handler result n =>
      obtain ⟨hin, ⟨i, revents, rest⟩, hcurrent, hne, -, hn⟩ := hpossible
      obtain ⟨hd, rest, rfl⟩ := List.exists_cons_of_ne_nil hne
      unfold Action.run
      rw [hcurrent]
      exact h.handler hin hcurrent hn fun hread hup => hok _ hcurrent (hread ▸ rfl) hup
  | handled => exact ⟨_, rfl, h.handled⟩
  | callFunctor => exact h.callFunctor hpossible
  | removeChannel => exact h.removeChannel hpossible.1
  | send i rMessage result =>
      obtain ⟨p, hp⟩ := h.fits i
      obtain ⟨conn, hconn, hfits⟩ := hp.conn_fits.send rMessage result
      exact ⟨s.record i conn [], bind_eq_ok_iff.mpr ⟨conn, hconn, rfl⟩, h.record_nil hp hfits⟩
  | shutDown i =>
      obtain ⟨p, hp⟩ := h.fits i
      exact ⟨_, rfl, h.record_nil hp hp.conn_fits.shutDown⟩

/-- Every orderly step keeps the invariant. -/
theorem step (s : ServerLoop T) (a : Action T) (s' : ServerLoop T) (h : s.LifeInv)
    (hok : a.Orderly s) (hst : Step s a s') : s'.LifeInv := by
  obtain ⟨⟨-, hpossible⟩, rfl⟩ := hst
  obtain ⟨s', hrun, hinv⟩ := h.run hpossible hok
  rw [Action.next, hrun]
  exact hinv

end LifeInv

/-! ## The life cycle -/

/-- **The callbacks of every connection follow the life cycle**, and no assertion fails, if all
steps of the run are orderly. -/
theorem lifeCycle_run {sName : List Char} {as : List (Action T)} {s : ServerLoop T}
    (hrun : Run Step (new sName) as s) (hok : Along Step (fun s a => a.Orderly s) (new sName) as) :
    s.fault = none ∧ ∀ i, ∃ k, (s.conns i).callbacks <+: lifeCycle k := by
  have h : s.LifeInv := hrun.invariant_along LifeInv.step hok (lifeInv_new sName)
  refine ⟨h.fault_eq, fun i => ?_⟩
  obtain ⟨p, hp⟩ := h.fits i
  obtain ⟨k, hk⟩ := hp.callbacks_eq
  have hcallbacks : (s.conns i).callbacks = p.callbacks k := hk
  exact ⟨k, hcallbacks ▸ p.callbacks_prefix k⟩

/-- The theorem on a connection that gets a message, is closed by `POLLHUP` with `POLLPRI`, and has
nothing to read then. -/
theorem lifeCycle_hup : ∃ s : ServerLoop Unit, Run Step (new ['s']) [.loop .startLoop,
      .loop .testQuit, .poll false [], .newConnection, .loop .enterDoPendingFunctors, .loop .swap,
      .loop .leaveDoPendingFunctors, .loop .testQuit, .poll false [(0, pollIn)], .handleEvent,
      .handler (.bytes [7]) (-1), .send 0 [8] 1, .handled, .loop .enterDoPendingFunctors,
      .loop .swap, .loop .leaveDoPendingFunctors, .loop .testQuit,
      .poll false [(0, pollHup ||| pollPri)], .handleEvent, .handler .error (-1),
      .handler .error (-1), .handled, .loop .enterDoPendingFunctors, .loop .swap, .callFunctor,
      .removeChannel] s ∧
    (s.conns 0).callbacks = [.connection true, .message, .close, .connection false] ∧
    s.fault = none ∧ ∀ i, ∃ k, (s.conns i).callbacks <+: lifeCycle k := by
  set as : List (Action Unit) := [.loop .startLoop, .loop .testQuit, .poll false [],
    .newConnection, .loop .enterDoPendingFunctors, .loop .swap, .loop .leaveDoPendingFunctors,
    .loop .testQuit, .poll false [(0, pollIn)], .handleEvent, .handler (.bytes [7]) (-1),
    .send 0 [8] 1, .handled, .loop .enterDoPendingFunctors, .loop .swap,
    .loop .leaveDoPendingFunctors, .loop .testQuit, .poll false [(0, pollHup ||| pollPri)],
    .handleEvent, .handler .error (-1), .handler .error (-1), .handled,
    .loop .enterDoPendingFunctors, .loop .swap, .callFunctor, .removeChannel]
  obtain ⟨s, hs, hcallbacks⟩ : ∃ s : ServerLoop Unit, exec (new ['s']) as = some s ∧
      (s.conns 0).callbacks = [.connection true, .message, .close, .connection false] :=
    ⟨_, rfl, rfl⟩
  have hok : Along Step (fun s a => Action.Orderly s a) (new ['s']) as :=
    along_of_allNext (by decide)
  exact ⟨s, run_of_exec hs, hcallbacks, lifeCycle_run (run_of_exec hs) hok⟩

/-- **`POLLHUP` with `POLLPRI`, but without `POLLIN`**: `HandleEvent` calls the close callback and
then the read callback. If there are bytes to read, a message is delivered after the close; at the
end of the stream, the connection is closed again, and the assertion of `__RemoveConnection`
fails. -/
theorem not_lifeCycle_hup_pri : ∃ s s' s'' : ServerLoop Unit,
    Run Step (new ['s']) [.loop .startLoop, .loop .testQuit, .poll false [], .newConnection,
      .loop .enterDoPendingFunctors, .loop .swap, .loop .leaveDoPendingFunctors, .loop .testQuit,
      .poll false [(0, pollHup ||| pollPri)], .handleEvent, .handler .error (-1)] s ∧
    Step s (.handler (.bytes [7]) (-1)) s' ∧ (∀ k, ¬ (s'.conns 0).callbacks <+: lifeCycle k) ∧
    Step s (.handler (.bytes []) (-1)) s'' ∧ s''.fault = some .assertion := by
  obtain ⟨s, hs, hen, hcallbacks, hen', hfault⟩ : ∃ s : ServerLoop Unit, exec (new ['s'])
      [.loop .startLoop, .loop .testQuit, .poll false [], .newConnection,
      .loop .enterDoPendingFunctors, .loop .swap, .loop .leaveDoPendingFunctors, .loop .testQuit,
      .poll false [(0, pollHup ||| pollPri)], .handleEvent, .handler .error (-1)] = some s ∧
      Action.Enabled s (.handler (.bytes [7]) (-1)) ∧
      ((Action.next s (.handler (.bytes [7]) (-1))).conns 0).callbacks =
        [.connection true, .close, .message] ∧
      Action.Enabled s (.handler (.bytes []) (-1)) ∧
      (Action.next s (.handler (.bytes []) (-1))).fault = some .assertion :=
    ⟨_, rfl, by decide, rfl, by decide, rfl⟩
  refine ⟨s, _, _, run_of_exec hs, ⟨hen, rfl⟩, fun k => ?_, ⟨hen', rfl⟩, hfault⟩
  rw [hcallbacks]
  cases k <;> simp [lifeCycle, List.replicate_succ]

end ServerLoop

end Neconet
