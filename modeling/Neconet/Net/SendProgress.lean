import Neconet.Net.FunctorLifetime
import Neconet.Net.LoopProgress
import Neconet.Net.SendOrder

/-!
# What becomes of a call

A connection on its loop, with any number of other threads in `Send` and `ShutDown`: what every step
keeps, and what a call comes to in the end, if nobody stops for ever, unless the program ends with a
failed assertion or on a destroyed connection.

* `CTcpConnection.Later`, `Later`: what only grows, and that writing is never enabled.
* `silence_run`: behind the first write that takes less than it was offered, the kernel takes no
  more.
* `loop_step`: what a step does to the loop.
* `Goes`: nobody stops for ever.
* `sendProgress_run`: the functor of every accepted message runs.
* `shutDownProgress_run`: every `ShutDown` that has found the connection connected shuts down the
  write side, behind everything that its thread has sent before.
-/

set_option linter.unusedSectionVars false

namespace Neconet

open Transition

/-! ## What only grows -/

namespace CTcpConnection

variable {c c' c'' : CTcpConnection}

/-- `c'` comes from `c` by calls of member functions, on a connection that is not watched for
writing. -/
structure Later (c c' : CTcpConnection) : Prop where
  /-- It is not watched for writing afterwards. -/
  isWriting_eq : c'.channel.isWriting = false
  /-- Nothing leaves the output buffer. -/
  outputBuffer_mono : c.outputBuffer <+: c'.outputBuffer
  /-- The kernel takes something only while the output buffer is empty. -/
  taken_eq : c.outputBuffer ≠ [] → c'.taken = c.taken
  /-- The write side stays shut down. -/
  shutdowns_le : c.shutdowns ≤ c'.shutdowns

/-- Nothing is called. -/
theorem Later.refl (hnot : c.channel.isWriting = false) : Later c c :=
  ⟨hnot, List.prefix_refl _, fun _ => rfl, le_rfl⟩

/-- One call after the other. -/
theorem Later.trans (h : Later c c') (h' : Later c' c'') : Later c c'' := by
  refine ⟨h'.isWriting_eq, h.outputBuffer_mono.trans h'.outputBuffer_mono, fun hne => ?_,
    h.shutdowns_le.trans h'.shutdowns_le⟩
  have hne' : c'.outputBuffer ≠ [] := by
    intro hnil
    exact hne (List.prefix_nil.mp (hnil ▸ h.outputBuffer_mono))
  rw [h'.taken_eq hne', h.taken_eq hne]

/-- The read side. -/
theorem ReadSide.later (h : ReadSide c c') (hnot : c.channel.isWriting = false) : Later c c' where
  isWriting_eq := h.isWriting_eq hnot
  outputBuffer_mono := by rw [h.outputBuffer_eq]
  taken_eq _ := h.taken_eq
  shutdowns_le := h.shutdowns_eq.ge

/-- `__SendInLoop`: the interest that it sets is `SetEnableReading`. -/
theorem later_sendInLoop {rMessage : List Byte} {result : ℤ} (hnot : c.channel.isWriting = false)
    (h : c.sendInLoop rMessage result = .ok c') : Later c c' := by
  obtain ⟨channel, rfl, hchannel⟩ := sendInLoop_ok h
  refine ⟨?_, List.prefix_append _ _, fun hne => ?_, le_rfl⟩
  · rcases hchannel with rfl | hset
    · exact hnot
    · exact WatchedChannel.isWriting_of_changeInterest hset hnot (by decide)
  · have hwrote : c.wrote result = 0 := if_neg fun hdirect => hne (writesDirectly_iff.mp hdirect).2
    simp [written, hwrote]

/-- `ShutDown` in the loop thread. -/
theorem later_shutDown (hnot : c.channel.isWriting = false) : Later c c.shutDown := by
  rw [shutDown_of_not_writing hnot]
  split_ifs
  · exact ⟨hnot, List.prefix_refl _, fun _ => rfl, Nat.le_succ _⟩
  · exact .refl hnot

/-- `__ShutdownInLoop` shuts down the write side. -/
theorem shutdownInLoop_of_not_writing (hnot : c.channel.isWriting = false) :
    c.shutdownInLoop = { c with shutdowns := c.shutdowns + 1 } := by
  rw [shutdownInLoop_eq, hnot]
  rfl

end CTcpConnection

namespace ConnectionLoop

variable {T : Type} [DecidableEq T] {s s' s'' : ConnectionLoop T}

/-- `s'` comes from `s` by steps. -/
structure Later (s s' : ConnectionLoop T) : Prop where
  /-- Accepted messages stay accepted. -/
  accepted_mono : ∀ sender, s.accepted sender <+: s'.accepted sender
  /-- Executed messages stay executed. -/
  executed_mono : s.executed <+: s'.executed
  /-- What has become of the connection. -/
  conn : s.conn.channel.isWriting = false → s.conn.Later s'.conn

/-- One step after the other. -/
theorem Later.trans (h : s.Later s') (h' : s'.Later s'') : s.Later s'' where
  accepted_mono sender := (h.accepted_mono sender).trans (h'.accepted_mono sender)
  executed_mono := h.executed_mono.trans h'.executed_mono
  conn hnot := (h.conn hnot).trans (h'.conn (h.conn hnot).isWriting_eq)

/-- A step that accepts and executes no message. -/
theorem Later.of_conn (haccepted : s'.accepted = s.accepted) (hexecuted : s'.executed = s.executed)
    (hconn : s.conn.channel.isWriting = false → s.conn.Later s'.conn) : s.Later s' :=
  ⟨fun sender => by rw [haccepted], by rw [hexecuted], hconn⟩

/-- A step that leaves the connection alone. -/
theorem Later.of_same (haccepted : s'.accepted = s.accepted) (hexecuted : s'.executed = s.executed)
    (hconn : s'.conn = s.conn) : s.Later s' := by
  refine .of_conn haccepted hexecuted fun hnot => ?_
  rw [hconn]
  exact .refl hnot

/-- A message is accepted. -/
theorem accepted_accept (s : ConnectionLoop T) (sender : Option T) (rMessage : List Byte)
    (u : Option T) : s.accepted u <+: (s.accept sender rMessage).accepted u := by
  by_cases hu : u = sender
  · rw [hu, accept_accepted_self]
    exact List.prefix_append _ _
  · rw [accept_accepted_of_ne s hu]

/-- The same calls are on their way, and the connection is in the same hands. -/
structure SameCalls (s s' : ConnectionLoop T) : Prop where
  /-- The positions in the calls are the same. -/
  calls_eq : s'.calls = s.calls
  /-- The holders are the same. -/
  owners_eq : s'.owners = s.owners
  /-- As many handlers are to come. -/
  active_eq : s'.active = s.active

/-- The call of a functor. -/
theorem later_runFunctor {loop : CEventLoop (Functor T) T} {cb : Functor T} {result : ℤ}
    (hrun : runFunctor { s with loop := loop } result cb = .ok s') :
    s.SameCalls s' ∧ s.Later s' := by
  cases cb with
  | sendInLoop m =>
      unfold runFunctor at hrun
      split_ifs at hrun
      obtain ⟨conn, hconn, hrun⟩ := bind_eq_ok_iff.mp hrun
      cases Except.ok.inj hrun
      exact ⟨⟨rfl, rfl, rfl⟩, fun _ => List.prefix_refl _, List.prefix_append _ _,
        fun hnot => CTcpConnection.later_sendInLoop hnot hconn⟩
  | shutdownInLoop =>
      unfold runFunctor at hrun
      split_ifs at hrun
      cases Except.ok.inj hrun
      refine ⟨⟨rfl, rfl, rfl⟩, .of_conn rfl rfl fun hnot => ?_⟩
      dsimp only
      rw [CTcpConnection.shutdownInLoop_of_not_writing hnot]
      exact ⟨hnot, List.prefix_refl _, fun _ => rfl, Nat.le_succ _⟩
  | connectDestroyed =>
      obtain ⟨⟨conn, callback⟩, hdestroyed, hrun⟩ := bind_eq_ok_iff.mp hrun
      obtain ⟨conn', hremove, hrun⟩ := bind_eq_ok_iff.mp hrun
      cases Except.ok.inj hrun
      refine ⟨⟨rfl, rfl, rfl⟩, .of_conn rfl rfl fun _ => ?_⟩
      dsimp only
      rw [(CTcpConnection.connectDestroyed_ok hdestroyed hremove).1]
      exact ⟨isWriting_noneEvent, List.prefix_refl _, fun _ => rfl, le_rfl⟩
  | other =>
      cases Except.ok.inj hrun
      exact ⟨⟨rfl, rfl, rfl⟩, .of_same rfl rfl rfl⟩

/-- `Send` in the loop thread. -/
theorem later_loopSend {rMessage : List Byte} {result : ℤ}
    (hrun : s.loopSend rMessage result = .ok s') :
    s'.loop = s.loop ∧ s.SameCalls s' ∧ s.Later s' := by
  unfold loopSend at hrun
  split_ifs at hrun with hstate
  · obtain ⟨conn, hconn, hrun⟩ := bind_eq_ok_iff.mp hrun
    rw [CTcpConnection.send_of_eConnected hstate] at hconn
    cases Except.ok.inj hrun
    exact ⟨rfl, ⟨rfl, rfl, rfl⟩, s.accepted_accept none rMessage, List.prefix_append _ _,
      fun hnot => CTcpConnection.later_sendInLoop hnot hconn⟩
  · cases Except.ok.inj hrun
    exact ⟨rfl, ⟨rfl, rfl, rfl⟩, .of_same rfl rfl rfl⟩

/-- **What every step keeps.** -/
theorem later_of_step {a : Action T} (hst : Step s a s') : s.Later s' := by
  obtain ⟨⟨-, hpossible⟩, rfl⟩ := hst
  rcases hrun : a.run s with e | s'
  · rw [next_of_error hrun]
    exact .of_same rfl rfl rfl
  rw [next_of_ok hrun]
  have hreadSide : (∃ result, a = .handleRead result) ∨ a = .handleClose → s.Later s' := by
    intro ha
    obtain ⟨conn, hconn, rfl | hclose⟩ := readSide_of_run ha hrun
    · exact .of_conn rfl rfl hconn.later
    · obtain ⟨-, rfl⟩ := removeConnection_ok hclose
      exact .of_conn rfl rfl hconn.later
  cases a with
  | handleRead result => exact hreadSide (Or.inl ⟨result, rfl⟩)
  | handleClose => exact hreadSide (Or.inr rfl)
  | handleWrite n =>
      obtain ⟨conn, hconn, hrun⟩ := bind_eq_ok_iff.mp hrun
      cases Except.ok.inj hrun
      refine .of_conn rfl rfl fun hnot => ?_
      rw [CTcpConnection.handleWrite_of_not_writing hnot] at hconn
      cases Except.ok.inj hconn
      exact .refl hnot
  | callFunctor result =>
      obtain ⟨cb, rest, hcons⟩ := List.exists_cons_of_ne_nil hpossible.1.2
      unfold Action.run at hrun
      rw [hcons] at hrun
      exact (later_runFunctor hrun).2
  | send rMessage result => exact (later_loopSend hrun).2.2
  | shutDown =>
      cases Except.ok.inj hrun
      exact .of_conn rfl rfl CTcpConnection.later_shutDown
  | threadTest t =>
      cases Except.ok.inj hrun
      rcases test_cases hpossible with ⟨rMessage, -, heq⟩ | ⟨pc, -, heq⟩
      · rw [heq]
        exact ⟨s.accepted_accept (some t) rMessage, List.prefix_refl _, fun hnot => .refl hnot⟩
      · rw [heq]
        exact .of_same rfl rfl rfl
  | threadSetState t =>
      cases Except.ok.inj hrun
      exact .of_conn rfl rfl fun hnot => ⟨hnot, List.prefix_refl _, fun _ => rfl, le_rfl⟩
  | threadPush t =>
      cases Except.ok.inj hrun
      unfold threadPush
      split <;> exact .of_same rfl rfl rfl
  | loop | poll | handled | threadSend | threadShutDown | threadReturn =>
      cases Except.ok.inj hrun
      exact .of_same rfl rfl rfl

/-- What every run keeps. -/
theorem later_of_run {as : List (Action T)} (hrun : Run Step s as s') : s.Later s' := by
  induction hrun with
  | nil s => exact .of_same rfl rfl rfl
  | cons head tail ih => exact (later_of_step head).trans ih

/-- An established connection is not watched for writing. -/
theorem Initial.isWriting_eq (h : s.Initial) : s.conn.channel.isWriting = false := by
  rw [h.conn_eq]
  rfl

/-- **Behind a short write there is silence.** In every run of a connection on its loop, with any
number of threads that call `Send` and `ShutDown`, and any results of `::write`: writing is never
enabled; as long as the output buffer is empty, the kernel has taken the bytes of all messages whose
`__SendInLoop` has run; and once it is not empty, the kernel takes no byte more, whatever is sent,
polled or closed, and the output buffer keeps the bytes of every message that is executed from then
on. -/
theorem silence_run {s₀ : ConnectionLoop T} {as bs : List (Action T)} (h₀ : s₀.Initial)
    (hrun : Run Step s₀ as s) (hrun' : Run Step s bs s') :
    s.conn.channel.isWriting = false ∧
    (s.conn.outputBuffer = [] → s.conn.taken = s.executed.flatMap Message.bytes) ∧
    (s.conn.outputBuffer ≠ [] → s'.conn.taken = s.conn.taken ∧
      ∃ ms, s'.executed = s.executed ++ ms ∧
        s'.conn.outputBuffer = s.conn.outputBuffer ++ ms.flatMap Message.bytes) := by
  have hnot := ((later_of_run hrun).conn h₀.isWriting_eq).isWriting_eq
  have hsend : s.SendInv := hrun.invariant SendInv.step (sendInv_of_initial h₀)
  have hsend' : s'.SendInv := hrun'.invariant SendInv.step hsend
  have hstream := hsend.stream_eq
  refine ⟨hnot, fun hnil => ?_, fun hne => ?_⟩
  · rwa [CTcpConnection.stream, hnil, List.append_nil] at hstream
  · have hlater := later_of_run hrun'
    have htaken := (hlater.conn hnot).taken_eq hne
    obtain ⟨ms, hms⟩ := hlater.executed_mono
    refine ⟨htaken, ms, hms.symm, ?_⟩
    have hstream' := hsend'.stream_eq
    rw [← hms, List.flatMap_append, ← hstream, CTcpConnection.stream, CTcpConnection.stream, htaken,
      List.append_assoc] at hstream'
    exact List.append_cancel_left hstream'

/-- The theorem on a message of two bytes of which the kernel takes one, and another message behind
it, of which it would take all. -/
theorem silence_run_partial : ∃ s s' : ConnectionLoop Unit, Run Step start [.send [7, 8] 1] s ∧
    Run Step s [.send [9] 1] s' ∧ s'.conn.taken = [7] ∧ s'.conn.outputBuffer = [8, 9] := by
  obtain ⟨s, s', hs, hs', htaken, hbuffer, hexecuted, hexecuted'⟩ : ∃ s s' : ConnectionLoop Unit,
      exec start [.send [7, 8] 1] = some s ∧ exec s [.send [9] 1] = some s' ∧ s.conn.taken = [7] ∧
      s.conn.outputBuffer = [8] ∧ s.executed = [⟨none, 0, [7, 8]⟩] ∧
      s'.executed = [⟨none, 0, [7, 8]⟩, ⟨none, 1, [9]⟩] := ⟨_, _, rfl, rfl, rfl, rfl, rfl, rfl⟩
  obtain ⟨htaken', ms, hms, hbuffer'⟩ :=
    (silence_run initial_start (run_of_exec hs) (run_of_exec hs')).2.2 (by simp [hbuffer])
  rw [hexecuted, hexecuted'] at hms
  cases hms
  refine ⟨s, s', run_of_exec hs, run_of_exec hs', htaken'.trans htaken, ?_⟩
  rw [hbuffer', hbuffer]
  rfl

/-! ## The loop and the threads -/

/-- **What a step does to the loop**: nothing, a step that calls no functor, or the call of a
functor without a fault. A batch ends only by a step of the loop itself. -/
theorem loop_step {a : Action T} (hst : Step s a s') :
    s'.loop = s.loop ∨
    (∃ b, b.isCall = false ∧ (b = .leaveDoPendingFunctors → a = .loop b) ∧
      CEventLoop.Step s.loop b s'.loop) ∨
    ∃ result cb rest, a = .callFunctor result ∧ (CEventLoop.Action.callFunctor).Enabled s.loop ∧
      s.loop.functors = cb :: rest ∧
      runFunctor { s with loop := CEventLoop.Action.callFunctor.next s.loop } result cb =
        .ok s' := by
  obtain ⟨⟨-, hpossible⟩, rfl⟩ := hst
  rcases hrun : a.run s with e | s'
  · rw [next_of_error hrun]
    exact Or.inl rfl
  rw [next_of_ok hrun]
  have hreadSide : (∃ result, a = .handleRead result) ∨ a = .handleClose → s.InHandler →
      s'.loop = s.loop ∨ ∃ b, b.isCall = false ∧ (b = .leaveDoPendingFunctors → a = .loop b) ∧
        CEventLoop.Step s.loop b s'.loop := by
    intro ha hin
    obtain ⟨conn, -, rfl | hclose⟩ := readSide_of_run ha hrun
    · exact Or.inl rfl
    · obtain ⟨-, rfl⟩ := removeConnection_ok hclose
      exact Or.inr ⟨.queueInLoop .connectDestroyed, rfl, nofun, ⟨Or.inl hin.1, hin.2.1⟩, rfl⟩
  cases a with
  | loop b =>
      cases Except.ok.inj hrun
      exact Or.inr (Or.inl ⟨b, hpossible.2.isCall_eq, fun _ => rfl, hpossible.1, rfl⟩)
  | poll readable reported =>
      cases Except.ok.inj hrun
      exact Or.inr (Or.inl ⟨.poll readable, rfl, nofun, hpossible.1, rfl⟩)
  | handleRead result => exact (hreadSide (Or.inl ⟨result, rfl⟩) hpossible).imp_right Or.inl
  | handleClose => exact (hreadSide (Or.inr rfl) hpossible).imp_right Or.inl
  | handleWrite n =>
      obtain ⟨conn, -, hrun⟩ := bind_eq_ok_iff.mp hrun
      cases Except.ok.inj hrun
      exact Or.inl rfl
  | callFunctor result =>
      obtain ⟨cb, rest, hcons⟩ := List.exists_cons_of_ne_nil hpossible.1.2
      unfold Action.run at hrun
      rw [hcons] at hrun
      exact Or.inr (Or.inr ⟨result, cb, rest, rfl, hpossible.1, hcons, hrun⟩)
  | send rMessage result => exact Or.inl (later_loopSend hrun).1
  | threadTest t =>
      cases Except.ok.inj hrun
      left
      rcases test_cases hpossible with ⟨rMessage, -, heq⟩ | ⟨pc, -, heq⟩
      · rw [heq]
        rfl
      · rw [heq]
        rfl
  | threadPush t =>
      cases Except.ok.inj hrun
      unfold threadPush
      cases hfunctor : (s.calls t).functor? with
      | none => exact Or.inl rfl
      | some cb => exact Or.inr (Or.inl ⟨.threadQueueInLoop t cb, rfl, nofun, hpossible.2, rfl⟩)
  | handled | shutDown | threadSend | threadShutDown | threadSetState | threadReturn =>
      cases Except.ok.inj hrun
      exact Or.inl rfl

/-- The step is one of the thread's, in its call on the connection. -/
def Action.IsOf (t : T) : Action T → Prop
  | threadSend u _ => u = t
  | threadShutDown u => u = t
  | threadTest u => u = t
  | threadSetState u => u = t
  | threadPush u => u = t
  | threadReturn u => u = t
  | _ => False

/-- Nobody else moves a thread in its call. -/
theorem calls_of_not_isOf {a : Action T} {t : T} (hst : Step s a s') (ha : ¬ a.IsOf t) :
    s'.calls t = s.calls t := by
  obtain ⟨⟨-, hpossible⟩, rfl⟩ := hst
  rcases hrun : a.run s with e | s'
  · rw [next_of_error hrun]
  rw [next_of_ok hrun]
  have hreadSide : (∃ result, a = .handleRead result) ∨ a = .handleClose → s'.calls = s.calls := by
    intro ha
    obtain ⟨conn, -, rfl | hclose⟩ := readSide_of_run ha hrun
    · rfl
    · obtain ⟨-, rfl⟩ := removeConnection_ok hclose
      rfl
  cases a with
  | handleRead result => rw [hreadSide (Or.inl ⟨result, rfl⟩)]
  | handleClose => rw [hreadSide (Or.inr rfl)]
  | handleWrite n =>
      obtain ⟨conn, -, hrun⟩ := bind_eq_ok_iff.mp hrun
      cases Except.ok.inj hrun
      rfl
  | callFunctor result =>
      obtain ⟨cb, rest, hcons⟩ := List.exists_cons_of_ne_nil hpossible.1.2
      unfold Action.run at hrun
      rw [hcons] at hrun
      rw [(later_runFunctor hrun).1.calls_eq]
  | send rMessage result => rw [(later_loopSend hrun).2.1.calls_eq]
  | threadTest u =>
      cases Except.ok.inj hrun
      rcases test_cases hpossible with ⟨rMessage, -, heq⟩ | ⟨pc, -, heq⟩
      · rw [heq]
        exact goto_calls_of_ne _ (Ne.symm ha) _
      · rw [heq]
        exact goto_calls_of_ne _ (Ne.symm ha) _
  | threadPush u =>
      cases Except.ok.inj hrun
      unfold threadPush
      split
      · exact goto_calls_of_ne s (Ne.symm ha) _
      · rfl
  | threadSend u | threadShutDown u | threadSetState u | threadReturn u =>
      cases Except.ok.inj hrun
      exact goto_calls_of_ne s (Ne.symm ha) _
  | loop | poll | handled | shutDown =>
      cases Except.ok.inj hrun
      rfl

/-- **What a thread's own step finds**: behind the test, `ShutDown` sets the state, and a functor is
pushed. -/
theorem isOf_cases {a : Action T} {t : T} (hst : Step s a s') (ha : a.IsOf t) :
    s.calls t = .idle ∨ (s.calls t).AtTest ∨ s.calls t = .returning ∨
      s.calls t = .shutDownAccepted ∧ s'.calls t = .shutDownSet ∨
      ∃ cb, (s.calls t).functor? = some cb ∧
        CEventLoop.Step s.loop (.threadQueueInLoop t cb) s'.loop := by
  obtain ⟨⟨-, hpossible⟩, rfl⟩ := hst
  cases a with
  | threadSend u =>
      cases ha
      exact Or.inl hpossible.1
  | threadShutDown u =>
      cases ha
      exact Or.inl hpossible.1
  | threadTest u =>
      cases ha
      exact Or.inr (Or.inl hpossible)
  | threadReturn u =>
      cases ha
      exact Or.inr (Or.inr (Or.inl hpossible.1))
  | threadSetState u =>
      cases ha
      exact Or.inr (Or.inr (Or.inr (Or.inl ⟨hpossible, goto_calls_self s t _⟩)))
  | threadPush u =>
      cases ha
      obtain ⟨cb, hcb⟩ := Option.ne_none_iff_exists'.mp hpossible.1
      refine Or.inr (Or.inr (Or.inr (Or.inr ⟨cb, hcb, hpossible.2, ?_⟩)))
      simp [Action.next, Action.run, threadPush, hcb]
  | loop | poll | handleRead | handleWrite | handleClose | handled | callFunctor | send
  | shutDown => exact ha.elim

/-- A thread with a functor in its hands pushes it. -/
theorem push_of_functor? {a : Action T} {t : T} {cb : Functor T} (hst : Step s a s')
    (hcb : (s.calls t).functor? = some cb) :
    s'.calls t = s.calls t ∨ CEventLoop.Step s.loop (.threadQueueInLoop t cb) s'.loop := by
  by_cases ha : a.IsOf t
  · rcases isOf_cases hst ha with hidle | htest | hreturning | ⟨haccepted, -⟩ | ⟨cb', hcb', hpush⟩
    · simp [hidle, CallPc.functor?] at hcb
    · cases hcall : s.calls t <;> simp_all [CallPc.AtTest, CallPc.functor?]
    · simp [hreturning, CallPc.functor?] at hcb
    · simp [haccepted, CallPc.functor?] at hcb
    · rw [hcb] at hcb'
      cases hcb'
      exact Or.inr hpush
  · exact Or.inl (calls_of_not_isOf hst ha)

/-- Behind the test, `ShutDown` sets the state. -/
theorem calls_of_shutDownAccepted {a : Action T} {t : T} (hst : Step s a s')
    (hcall : s.calls t = .shutDownAccepted) :
    s'.calls t = s.calls t ∨ s'.calls t = .shutDownSet := by
  by_cases ha : a.IsOf t
  · rcases isOf_cases hst ha with hidle | htest | hreturning | ⟨-, hset⟩ | ⟨cb, hcb, -⟩
    · simp [hcall] at hidle
    · rw [hcall] at htest
      exact htest.elim
    · simp [hcall] at hreturning
    · exact Or.inr hset
    · simp [hcall, CallPc.functor?] at hcb
  · exact Or.inl (calls_of_not_isOf hst ha)

/-! ## If nobody stops -/

/-- The loop of the connection. -/
def loops (x : Behaviour (Step (T := T))) : Behaviour (CEventLoop.Step (F := Functor T) (T := T)) :=
  x.map ConnectionLoop.loop fun n => by
    rcases x.move n with hsame | ⟨a, hst⟩
    · exact Or.inl (by rw [hsame])
    · rcases loop_step hst with hsame | ⟨b, -, -, hloop⟩ | ⟨result, cb, rest, -, hen, -, hrun⟩
      · exact Or.inl hsame
      · exact Or.inr ⟨b, hloop⟩
      · exact Or.inr ⟨.callFunctor, hen, (runFunctor_ok hrun).1⟩

/-- Nobody stops for ever. -/
structure Goes (x : Behaviour (Step (T := T))) : Prop where
  /-- The loop goes on. -/
  loop : CEventLoop.Goes (loops x)
  /-- The threads go on in their calls on the connection. -/
  calls : ∀ n t, (x.state n).calls t ≠ .idle →
    ∃ m, n ≤ m ∧ (x.state m).calls t ≠ (x.state n).calls t

variable {x : Behaviour (Step (T := T))} {n : ℕ}

/-- What holds if nobody stops for ever holds unless the program ends with a fault. -/
theorem or_fault {p : Prop} (hgoes : (∀ k, (x.state k).fault = none) → Goes x) (h : Goes x → p) :
    p ∨ ∃ k, (x.state k).fault ≠ none := by
  by_cases hfault : ∃ k, (x.state k).fault ≠ none
  · exact Or.inr hfault
  · rw [not_exists] at hfault
    exact Or.inl (h (hgoes fun k => not_not.mp (hfault k)))

/-- What is known of the loop in every state. -/
theorem kept_state (h₀ : (x.state 0).Initial) (n : ℕ) :
    (x.state n).loop.ControlInv ∧ (x.state n).loop.WakeInv := by
  obtain ⟨as, hrun⟩ := h₀.loop_reachable
  have hzero : (x.state 0).loop.ControlInv ∧ (x.state 0).loop.WakeInv :=
    hrun.invariant (I := fun s => s.ControlInv ∧ s.WakeInv) CEventLoop.kept_step
      ⟨CEventLoop.controlInv_new, fun _ _ hne => absurd rfl hne⟩
  exact (loops x).invariant (I := fun s => s.ControlInv ∧ s.WakeInv) CEventLoop.kept_step
    (Nat.zero_le n) hzero

/-- What is known of the messages in every state. -/
theorem sendInv_state (h₀ : (x.state 0).Initial) (n : ℕ) : (x.state n).SendInv :=
  x.invariant SendInv.step (Nat.zero_le n) (sendInv_of_initial h₀)

/-- What has been, later on. -/
theorem later_state {m : ℕ} (hnm : n ≤ m) : (x.state n).Later (x.state m) :=
  x.invariant (I := fun s => (x.state n).Later s)
    (fun _ _ _ h hst => h.trans (later_of_step hst)) hnm (.of_same rfl rfl rfl)

/-- A functor in the hands of a thread is pushed, to the end of the line. -/
theorem Goes.exists_push (h₀ : (x.state 0).Initial) (hgoes : Goes x) {t : T} {cb : Functor T}
    (hcb : ((x.state n).calls t).functor? = some cb) :
    ∃ m, n ≤ m ∧ (x.state m).calls t = (x.state n).calls t ∧
      (x.state (m + 1)).loop.ran = (x.state m).loop.ran ∧
      (x.state (m + 1)).loop.line = (x.state m).loop.line ++ [cb] := by
  have hin : (x.state n).calls t ≠ .idle := by
    intro hidle
    simp [hidle, CallPc.functor?] at hcb
  obtain ⟨m, a, hnm, hcall, hst, hnot⟩ := x.exists_last
    (P := fun s => s.calls t = (x.state n).calls t) rfl (hgoes.calls n t hin)
  have hpush := (push_of_functor? hst (hcall ▸ hcb)).resolve_left fun hsame =>
    hnot (hsame.trans hcall)
  have hctl := (kept_state h₀ m).1
  exact ⟨m, hnm, hcall, (hctl.queue_step hpush rfl).1, hctl.line_step hpush⟩

/-- A message whose functor has been called has been executed. -/
theorem SendInv.mem_executed {m : Message T} (h : s.SendInv) (hm : .sendInLoop m ∈ s.loop.ran) :
    m ∈ s.executed := by
  have hmem : m ∈ messages s.loop.ran := List.mem_filterMap.mpr ⟨_, hm, rfl⟩
  rw [h.ran_eq] at hmem
  exact (List.mem_filter.mp hmem).1

/-- An accepted message of another thread has been executed, is in the queue, or is in its hands. -/
theorem SendInv.mem_of_accepted {m : Message T} {t : T} (h : s.SendInv)
    (hm : m ∈ s.accepted (some t)) :
    m ∈ s.executed ∨ .sendInLoop m ∈ s.loop.queue ∨ s.calls t = .sendAccepted m := by
  rw [← h.others_eq t, List.mem_append] at hm
  rcases hm with hm | hhand
  · rcases List.mem_append.mp (List.mem_of_mem_filter hm) with hexecuted | hqueue
    · exact Or.inl hexecuted
    · obtain ⟨cb, hcb, hmessage⟩ := List.mem_filterMap.mp hqueue
      cases cb with
      | sendInLoop m' =>
          cases hmessage
          exact Or.inr (Or.inl hcb)
      | shutdownInLoop | connectDestroyed | other => cases hmessage
  · right; right
    cases hcall : s.calls t with
    | sendAccepted m' =>
        rw [hcall] at hhand
        rw [List.mem_singleton.mp hhand]
    | idle | send | shutDown | shutDownAccepted | shutDownSet | returning =>
        rw [hcall] at hhand
        cases hhand

/-- A message in the line is executed. -/
theorem Goes.executes (h₀ : (x.state 0).Initial) (hgoes : Goes x)
    (hin : ∀ m, n ≤ m → (x.state m).loop.pc ≠ .outside) {m : Message T}
    (hm : .sendInLoop m ∈ (x.state n).loop.line) : ∃ k, n ≤ k ∧ m ∈ (x.state k).executed := by
  obtain ⟨i, hi⟩ := List.mem_iff_getElem?.mp hm
  obtain ⟨k, hnk, hran⟩ := hgoes.loop.callsFunctor (kept_state h₀ n) hi hin
  exact ⟨k, hnk, (sendInv_state h₀ k).mem_executed (List.mem_of_getElem? hran)⟩

/-- An accepted message is executed. -/
theorem Goes.executesAccepted (h₀ : (x.state 0).Initial) (hgoes : Goes x)
    (hin : ∀ m, n ≤ m → (x.state m).loop.pc ≠ .outside) {sender : Option T} {m : Message T}
    (hm : m ∈ (x.state n).accepted sender) : ∃ k, n ≤ k ∧ m ∈ (x.state k).executed := by
  have h := sendInv_state h₀ n
  cases sender with
  | none =>
      rw [← h.own_eq] at hm
      exact ⟨n, le_rfl, List.mem_of_mem_filter hm⟩
  | some t =>
      rcases h.mem_of_accepted hm with hexecuted | hqueue | hhand
      · exact ⟨n, le_rfl, hexecuted⟩
      · refine hgoes.executes h₀ hin ?_
        rw [CEventLoop.line, List.append_assoc]
        exact List.mem_append_right _ hqueue
      · have hcb : ((x.state n).calls t).functor? = some (.sendInLoop m) := by
          rw [hhand]
          rfl
        obtain ⟨k, hnk, -, -, hline⟩ := hgoes.exists_push h₀ hcb
        obtain ⟨l, hkl, hl⟩ := hgoes.executes h₀ (n := k + 1) (fun j hj => hin j (by omega))
          (by rw [hline]; exact List.mem_append_right _ (List.mem_singleton_self _))
        exact ⟨l, by omega, hl⟩

/-- **Every accepted message is executed.** In every behaviour of a connection on its loop in which
nobody stops for ever, with any number of threads that call `Send` and `ShutDown` at any time: as
long as `StartLoop` goes on, the `__SendInLoop` of every message that `Send` has accepted from any
thread runs, also if the connection is shut down or closed meanwhile, unless the program ends with a
failed assertion or on a destroyed connection. -/
theorem sendProgress_run (h₀ : (x.state 0).Initial)
    (hgoes : (∀ k, (x.state k).fault = none) → Goes x)
    (hin : ∀ m, n ≤ m → (x.state m).loop.pc ≠ .outside) {sender : Option T} {m : Message T}
    (hm : m ∈ (x.state n).accepted sender) :
    (∃ k, n ≤ k ∧ m ∈ (x.state k).executed) ∨ ∃ k, (x.state k).fault ≠ none :=
  or_fault hgoes fun hgoes => hgoes.executesAccepted h₀ hin hm

/-- **The moment in which a functor is called**: what was in the line before it has been called. -/
theorem Goes.exists_call (h₀ : (x.state 0).Initial) (hgoes : Goes x)
    (hin : ∀ m, n ≤ m → (x.state m).loop.pc ≠ .outside) {cb : Functor T} {l : List (Functor T)}
    (hline : (x.state n).loop.line = l ++ [cb]) (hran : (x.state n).loop.ran.length ≤ l.length) :
    ∃ m result, n ≤ m ∧ (x.state m).loop.ran = l ∧
      runFunctor { x.state m with loop := CEventLoop.Action.callFunctor.next (x.state m).loop }
        result cb = .ok (x.state (m + 1)) := by
  have hcb : (x.state n).loop.line[l.length]? = some cb := by simp [hline]
  obtain ⟨k, hnk, hk⟩ := hgoes.loop.callsFunctor (kept_state h₀ n) hcb hin
  have hlt := (List.getElem?_eq_some_iff.mp hk).1
  obtain ⟨m, a, hnm, hle, hst, hnot⟩ := x.exists_last
    (P := fun s => s.loop.ran.length ≤ l.length) hran ⟨k, hnk, not_le.mpr hlt⟩
  rw [not_le] at hnot
  have hctl := (kept_state h₀ m).1
  rcases loop_step hst with hsame | ⟨b, hcall, -, hloop⟩ | ⟨result, cb', rest, -, hen, hcons, hrun⟩
  · rw [hsame] at hnot
    omega
  · rw [(hctl.queue_step hloop hcall).1] at hnot
    omega
  · obtain ⟨hran', hqueue⟩ := CEventLoop.queue_callFunctor hcons
    rw [(runFunctor_ok hrun).1, hran', List.length_append, List.length_singleton] at hnot
    obtain ⟨more, hmore⟩ : (x.state n).loop.line <+: (x.state m).loop.line :=
      CEventLoop.line_mono (x := loops x) hnm (kept_state h₀ n).1
    rw [hline, CEventLoop.line, List.append_assoc, List.append_assoc] at hmore
    obtain ⟨hl, hrest⟩ := List.append_inj hmore (by omega)
    rw [show (x.state m).loop.functors ++ (x.state m).loop.pendingFunctors = _ from hqueue] at hrest
    cases (List.cons.inj hrest).1
    exact ⟨m, result, hnm, hl.symm, hrun⟩

/-- A `ShutDown` that has found the connection connected shuts down the write side. -/
theorem Goes.shutsDown (h₀ : (x.state 0).Initial) (hgoes : Goes x)
    (hin : ∀ m, n ≤ m → (x.state m).loop.pc ≠ .outside) {t : T}
    (hcall : (x.state n).calls t = .shutDownAccepted) :
    ∃ k, n ≤ k ∧ (x.state (k + 1)).conn.shutdowns = (x.state k).conn.shutdowns + 1 ∧
      ∀ m ∈ (x.state n).accepted (some t), m ∈ (x.state k).executed := by
  -- the thread sets the state, and then pushes its functor
  obtain ⟨i, a, hni, hcalli, hst, hnot⟩ := x.exists_last
    (P := fun s => s.calls t = .shutDownAccepted) hcall
    (by simpa only [hcall] using hgoes.calls n t (by simp [hcall]))
  have hset : (x.state (i + 1)).calls t = .shutDownSet :=
    (calls_of_shutDownAccepted hst hcalli).resolve_left fun hsame => hnot (hsame.trans hcalli)
  have hcb : ((x.state (i + 1)).calls t).functor? = some .shutdownInLoop := by
    rw [hset]
    rfl
  obtain ⟨j, hij, hcallj, hranj, hlinej⟩ := hgoes.exists_push h₀ hcb
  have hle : (x.state (j + 1)).loop.ran.length ≤ (x.state j).loop.line.length := by
    rw [hranj, CEventLoop.line, List.append_assoc, List.length_append]
    omega
  obtain ⟨k, result, hjk, hran, hrun⟩ :=
    hgoes.exists_call h₀ (n := j + 1) (fun l hl => hin l (by omega)) hlinej hle
  refine ⟨k, by omega, ?_, fun m hm => ?_⟩
  · have hnotWriting := ((later_state (Nat.zero_le k)).conn h₀.isWriting_eq).isWriting_eq
    unfold runFunctor at hrun
    split_ifs at hrun
    rw [← Except.ok.inj hrun]
    dsimp only
    rw [CTcpConnection.shutdownInLoop_of_not_writing hnotWriting]
  · have haccepted := (later_state (x := x) (show n ≤ j by omega)).accepted_mono (some t)
    have hmj := (sendInv_state h₀ j).mem_of_accepted (haccepted.subset hm)
    rcases hmj with hexecuted | hqueue | hhand
    · exact (later_state (x := x) (show j ≤ k by omega)).executed_mono.subset hexecuted
    · refine (sendInv_state h₀ k).mem_executed ?_
      rw [hran, CEventLoop.line, List.append_assoc]
      exact List.mem_append_right _ hqueue
    · rw [hcallj, hset] at hhand
      cases hhand

/-- **`ShutDown` works, behind everything that its thread has sent before.** In every behaviour of a
connection on its loop in which nobody stops for ever, with any number of other threads that send
and shut down at any time: as long as `StartLoop` goes on, behind each `ShutDown` of a thread that
has found the connection connected there is a moment in which the write side of the socket is shut
down, and in which all messages have been executed that `Send` had accepted from this thread before,
unless the program ends with a failed assertion or on a destroyed connection. -/
theorem shutDownProgress_run (h₀ : (x.state 0).Initial)
    (hgoes : (∀ k, (x.state k).fault = none) → Goes x)
    (hin : ∀ m, n ≤ m → (x.state m).loop.pc ≠ .outside) {t : T}
    (hcall : (x.state n).calls t = .shutDownAccepted) :
    (∃ k, n ≤ k ∧ (x.state (k + 1)).conn.shutdowns = (x.state k).conn.shutdowns + 1 ∧
      ∀ m ∈ (x.state n).accepted (some t), m ∈ (x.state k).executed) ∨
    ∃ k, (x.state k).fault ≠ none :=
  or_fault hgoes fun hgoes => hgoes.shutsDown h₀ hin hcall

/-! ## A behaviour -/

/-- A behaviour in which nobody stops before the end, and at the end, nobody has anything to do. -/
theorem Goes.of_stays {e : ℕ} (hstays : ∀ n, e ≤ n → x.state n = x.state e)
    (hloop : CEventLoop.Goes (loops x))
    (hcalls : ∀ n, n < e → ∀ t, (x.state n).calls t ≠ .idle →
      ∃ m, m < e + 1 ∧ n ≤ m ∧ (x.state m).calls t ≠ (x.state n).calls t)
    (hidle : ∀ t, (x.state e).calls t = .idle) : Goes x where
  loop := hloop
  calls n t ht := by
    by_cases hn : n < e
    · obtain ⟨m, -, hnm, hm⟩ := hcalls n hn t ht
      exact ⟨m, hnm, hm⟩
    · rw [hstays n (by omega)] at ht
      exact absurd (hidle t) ht

/-- A thread sends two bytes and shuts down; then the loop thread stays in `Poll`. -/
def sendsAndShutsDown : Behaviour (Step (T := Unit)) :=
  .ofLabels start [.threadSend () [1, 2], .threadTest (), .threadPush (),
    .loop (.threadWakeup () true), .threadReturn (), .threadShutDown (), .threadTest (),
    .threadSetState (), .threadPush (), .loop (.threadWakeup () true), .threadReturn (),
    .loop .enterDoPendingFunctors, .loop .swap, .callFunctor 2, .loop .returnFunctor,
    .callFunctor 0, .loop .returnFunctor, .loop .leaveDoPendingFunctors, .loop .testQuit,
    .poll true false, .loop .handleRead, .loop .enterDoPendingFunctors, .loop .swap,
    .loop .leaveDoPendingFunctors, .loop .testQuit] (by decide)

/-- Nobody stops for ever, the loop thread stays inside `StartLoop`, and no assertion fails. -/
theorem goes_sendsAndShutsDown : Goes sendsAndShutsDown ∧
    ∀ m, (sendsAndShutsDown.state m).loop.pc ≠ .outside ∧
      (sendsAndShutsDown.state m).fault = none := by
  have hstays : ∀ n, 25 ≤ n → sendsAndShutsDown.state n = sendsAndShutsDown.state 25 :=
    fun n hn => Behaviour.ofLabels_state_of_le _ hn
  have hloops : ∀ n, 25 ≤ n → (loops sendsAndShutsDown).state n = (loops sendsAndShutsDown).state 25 :=
    fun n hn => congrArg ConnectionLoop.loop (hstays n hn)
  have hgoes : CEventLoop.Goes (loops sendsAndShutsDown) :=
    .of_stays hloops (by decide) (by decide) (by decide) (by decide)
  refine ⟨.of_stays hstays hgoes (by decide) (by decide), fun m => ?_⟩
  by_cases hm : m < 25
  · revert m
    decide
  · rw [hstays m (by omega)]
    decide

/-- The theorem on its message, which is in the thread's hands. -/
theorem sendProgress_run_sendsAndShutsDown : (sendsAndShutsDown.state 2).executed = [] ∧
    ∃ k, 2 ≤ k ∧ ⟨some (), 0, [1, 2]⟩ ∈ (sendsAndShutsDown.state k).executed := by
  obtain ⟨hgoes, hin⟩ := goes_sendsAndShutsDown
  have hm : ⟨some (), 0, [1, 2]⟩ ∈ (sendsAndShutsDown.state 2).accepted (some ()) := by decide
  obtain hexecuted | ⟨k, hk⟩ :=
    sendProgress_run initial_start (fun _ => hgoes) (fun m _ => (hin m).1) hm
  · exact ⟨rfl, hexecuted⟩
  · exact absurd (hin k).2 hk

/-- The theorem on its `ShutDown`. -/
theorem shutDownProgress_run_sendsAndShutsDown : ∃ k, 7 ≤ k ∧
    (sendsAndShutsDown.state (k + 1)).conn.shutdowns =
      (sendsAndShutsDown.state k).conn.shutdowns + 1 ∧
    ⟨some (), 0, [1, 2]⟩ ∈ (sendsAndShutsDown.state k).executed := by
  obtain ⟨hgoes, hin⟩ := goes_sendsAndShutsDown
  have hcall : (sendsAndShutsDown.state 7).calls () = .shutDownAccepted := rfl
  obtain ⟨k, hk, hshut, hexecuted⟩ | ⟨k, hk⟩ :=
    shutDownProgress_run initial_start (fun _ => hgoes) (fun m _ => (hin m).1) hcall
  · exact ⟨k, hk, hshut, hexecuted _ (by decide)⟩
  · exact absurd (hin k).2 hk

end ConnectionLoop

end Neconet
