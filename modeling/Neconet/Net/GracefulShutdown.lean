import Neconet.Net.SendOrder

/-!
# Graceful shutdown

When the write side of the socket is shut down, has everything been sent?

* `Complete`: the steps after which a sender's messages are safe. Every `__SendInLoop` writes its
  whole message at once, and nobody else's `ShutDown` overtakes a message that the sender has not
  pushed or, if the loop thread calls it, a message in the queue.
* `ShutdownInv`: along such steps nothing is unsent, and behind a queued `__ShutdownInLoop` there is
  no message of the sender.
* `gracefulShutdown_run`: along such steps, `ShutdownWrite` comes after the last byte of the sender.
* `not_gracefulShutdown_partial`: a write that takes less than it was offered is enough to truncate
  a message.
-/

set_option linter.unusedSectionVars false

namespace Neconet

open Transition

namespace ConnectionLoop

variable {T : Type} [DecidableEq T]

/-! ## Steps that keep the messages of a sender safe -/

/-- The message that the sender has not pushed yet. -/
def handOf (s : ConnectionLoop T) : Option T → List (Message T)
  | none => []
  | some t => inHand (s.calls t)

/-- Every `__SendInLoop` writes its whole message at once; a `__ShutdownInLoop` is pushed while the
sender has no message in its hands, and called by the loop thread while the sender has none in the
queue either. -/
def Action.Complete (sender : Option T) (s : ConnectionLoop T) : Action T → Prop
  | callFunctor result => offered s.loop.functors ≤ result.toNat
  | send rMessage result => s.conn.state = .eConnected → rMessage.length ≤ result.toNat
  | shutDown => s.conn.state = .eConnected →
      s.handOf sender = [] ∧ ofSender sender (messages s.loop.queue) = []
  | threadPush t => s.calls t = .shutDownSet → s.handOf sender = []
  | _ => True

instance (sender : Option T) (s : ConnectionLoop T) :
    ∀ a : Action T, Decidable (a.Complete sender s)
  | .callFunctor result =>
      inferInstanceAs (Decidable (offered s.loop.functors ≤ result.toNat))
  | .send rMessage result =>
      inferInstanceAs (Decidable (s.conn.state = .eConnected → rMessage.length ≤ result.toNat))
  | .shutDown => inferInstanceAs (Decidable (s.conn.state = .eConnected →
      s.handOf sender = [] ∧ ofSender sender (messages s.loop.queue) = []))
  | .threadPush t =>
      inferInstanceAs (Decidable (s.calls t = .shutDownSet → s.handOf sender = []))
  | .loop _ | .poll .. | .handleRead _ | .handleWrite _ | .handleClose | .handled
  | .threadSend .. | .threadShutDown _ | .threadTest _ | .threadSetState _ | .threadReturn _ =>
      isTrue trivial

/-- Everything the sender has sent has been taken by the kernel, and so has everything else that was
given to the connection. -/
structure Delivered (sender : Option T) (s : ConnectionLoop T) : Prop where
  /-- The output buffer is empty. -/
  outputBuffer_eq : s.conn.outputBuffer = []
  /-- The kernel has taken the bytes of the executed messages. -/
  taken_eq : s.conn.taken = s.executed.flatMap Message.bytes
  /-- The messages that `Send` has accepted from the sender have been executed. -/
  executed_eq : ofSender sender s.executed = s.accepted sender

/-! ## The invariant -/

/-- The functor is a message of the sender. -/
def IsOf (sender : Option T) (f : Functor T) : Prop := ∃ m, f = .sendInLoop m ∧ m.sender = sender

/-- Nothing is unsent, and a queued `__ShutdownInLoop` has no message of the sender behind it. -/
structure ShutdownInv (sender : Option T) (s : ConnectionLoop T) : Prop where
  /-- Nothing is lost or reordered. -/
  send : s.SendInv
  /-- The output buffer is empty. -/
  outputBuffer_eq : s.conn.outputBuffer = []
  /-- The channel is not watched for writing. -/
  isWriting_eq : s.conn.channel.isWriting = false
  /-- `ShutDown` sets the state before it pushes. -/
  state_of_mem : .shutdownInLoop ∈ s.loop.queue → s.conn.state ≠ .eConnected
  /-- `ShutDown` has set the state where it is about to push. -/
  state_of_set : ∀ t, s.calls t = .shutDownSet → s.conn.state ≠ .eConnected
  /-- Behind a queued `__ShutdownInLoop` there is no message of the sender. -/
  queue_order : s.loop.queue.Pairwise fun f g => f = .shutdownInLoop → ¬ IsOf sender g
  /-- And none in its hands. -/
  handOf_eq : .shutdownInLoop ∈ s.loop.queue → s.handOf sender = []

/-- `__SendInLoop` writes its message itself. -/
theorem ShutdownInv.writesDirectly {sender : Option T} {s : ConnectionLoop T}
    (h : s.ShutdownInv sender) : s.conn.WritesDirectly :=
  CTcpConnection.writesDirectly_iff.mpr ⟨h.isWriting_eq, h.outputBuffer_eq⟩

/-- The invariant holds when the connection has been established. -/
theorem shutdownInv_of_initial {sender : Option T} {s : ConnectionLoop T} (h : s.Initial) :
    s.ShutdownInv sender := by
  have hnot : Functor.shutdownInLoop ∉ s.loop.queue := fun hmem => by
    cases h.queue_eq _ hmem
  refine ⟨sendInv_of_initial h, ?_, ?_, fun hmem => absurd hmem hnot, fun t ht => ?_, ?_,
    fun hmem => absurd hmem hnot⟩
  · rw [h.conn_eq]
    rfl
  · rw [h.conn_eq]
    rfl
  · rw [h.calls_eq] at ht
    cases ht
  · refine List.pairwise_of_forall_mem_list fun f hf g _ hshut => ?_
    rw [h.queue_eq f hf] at hshut
    cases hshut

section step

variable {sender : Option T} {s s' : ConnectionLoop T}

/-- Messages of the sender: executed, in the queue, in its hands. -/
theorem SendInv.line_eq (h : s.SendInv) (sender : Option T) :
    ofSender sender s.executed ++ ofSender sender (messages s.loop.queue) ++ s.handOf sender =
      s.accepted sender := by
  cases sender with
  | none =>
      have hnone : ofSender none (messages s.loop.queue) = [] :=
        List.filter_eq_nil_iff.mpr fun m hm => by simpa using h.queue_sender m hm
      rw [hnone, h.own_eq]
      simp [handOf]
  | some t =>
      rw [← h.others_eq t, ofSender_append]
      rfl

/-- **Where nothing of the sender is waiting, everything is delivered.** -/
theorem ShutdownInv.delivered (h : s.ShutdownInv sender) (hhand : s.handOf sender = [])
    (hqueue : ofSender sender (messages s.loop.queue) = []) : s.Delivered sender where
  outputBuffer_eq := h.outputBuffer_eq
  taken_eq := by
    rw [← h.send.stream_eq, CTcpConnection.stream, h.outputBuffer_eq, List.append_nil]
  executed_eq := by
    have hline := h.send.line_eq sender
    rwa [hhand, hqueue, List.append_nil, List.append_nil] at hline

/-- Functors that are no messages of the sender carry none. -/
theorem ofSender_messages_eq_nil {fs : List (Functor T)} (h : ∀ f ∈ fs, ¬ IsOf sender f) :
    ofSender sender (messages fs) = [] := by
  refine List.filter_eq_nil_iff.mpr fun m hm => ?_
  obtain ⟨f, hf, hfm⟩ := List.mem_filterMap.mp hm
  have hf' : f = .sendInLoop m := by
    cases f with
    | sendInLoop n => rw [Option.some.inj hfm]
    | shutdownInLoop | connectDestroyed | other => cases hfm
  simpa using fun hsender => h f hf ⟨m, hf', hsender⟩

/-- **A step that pushes no `__ShutdownInLoop`** keeps the invariant, if it leaves nothing
unsent. -/
theorem ShutdownInv.of_append (h : s.ShutdownInv sender) (hsend : s'.SendInv)
    (hbuffer : s'.conn.outputBuffer = []) (hwriting : s'.conn.channel.isWriting = false)
    (hstate : s'.conn.state = .eConnected → s.conn.state = .eConnected)
    (hset : ∀ t, s'.calls t = .shutDownSet →
      s.calls t = .shutDownSet ∨ s'.conn.state ≠ .eConnected)
    (fs : List (Functor T)) (hqueue : s'.loop.queue = s.loop.queue ++ fs)
    (hfs : ∀ f ∈ fs, f ≠ .shutdownInLoop ∧
      (.shutdownInLoop ∈ s.loop.queue → ¬ IsOf sender f))
    (hhand : s'.handOf sender = s.handOf sender ∨ s'.handOf sender = [] ∨
      s.conn.state = .eConnected) : s'.ShutdownInv sender := by
  have hmem : Functor.shutdownInLoop ∈ s'.loop.queue → .shutdownInLoop ∈ s.loop.queue := by
    intro hmem
    rw [hqueue, List.mem_append] at hmem
    exact hmem.resolve_right fun hin => (hfs _ hin).1 rfl
  refine ⟨hsend, hbuffer, hwriting, fun hin hconn => h.state_of_mem (hmem hin) (hstate hconn),
    fun t ht hconn => ?_, ?_, fun hin => ?_⟩
  · rcases hset t ht with hold | hnew
    · exact h.state_of_set t hold (hstate hconn)
    · exact hnew hconn
  · rw [hqueue, List.pairwise_append]
    refine ⟨h.queue_order, List.pairwise_of_forall_mem_list fun f hf _ _ hshut =>
      absurd hshut (hfs f hf).1, fun f hf g hg hshut => (hfs g hg).2 (hshut ▸ hf)⟩
  · rcases hhand with hsame | hnil | hconn
    · rw [hsame, h.handOf_eq (hmem hin)]
    · exact hnil
    · exact absurd hconn (h.state_of_mem (hmem hin))

/-- What a sender has in its hands is read off the positions of the threads. -/
theorem handOf_congr (h : s'.calls = s.calls) (sender : Option T) :
    s'.handOf sender = s.handOf sender := by
  cases sender with
  | none => rfl
  | some u => exact congrArg (fun calls => inHand (calls u)) h

/-- A thread that goes on without a message in its hands, before and after. -/
theorem handOf_goto {t : T} {pc : CallPc T} (hold : inHand (s.calls t) = []) (hnew : inHand pc = [])
    (sender : Option T) : (s.goto t pc).handOf sender = s.handOf sender := by
  cases sender with
  | none => rfl
  | some u => exact inHand_goto hold hnew u

/-- A thread that goes on to a position from which it does not push a `__ShutdownInLoop`. -/
theorem goto_ne_shutDownSet {t : T} {pc : CallPc T} (hpc : pc ≠ .shutDownSet) (u : T)
    (hu : (s.goto t pc).calls u = .shutDownSet) : s.calls u = .shutDownSet := by
  by_cases hut : u = t
  · subst hut
    rw [goto_calls_self] at hu
    exact absurd hu hpc
  · rwa [goto_calls_of_ne s hut] at hu

/-- A step of a thread that touches neither the loop nor the connection. -/
theorem ShutdownInv.of_goto (h : s.ShutdownInv sender) {t : T} {pc : CallPc T}
    (hsend : s'.SendInv) (hloop : s'.loop = s.loop) (hconn : s'.conn = s.conn)
    (hcalls : s'.calls = (s.goto t pc).calls) (hold : inHand (s.calls t) = [])
    (hnew : inHand pc = []) (hpc : pc ≠ .shutDownSet) : s'.ShutdownInv sender := by
  refine h.of_append hsend ?_ ?_ ?_ (fun u hu => Or.inl ?_) [] ?_ nofun (Or.inl ?_)
  · rw [hconn, h.outputBuffer_eq]
  · rw [hconn, h.isWriting_eq]
  · rw [hconn]
    exact id
  · rw [hcalls] at hu
    exact goto_ne_shutDownSet hpc u hu
  · rw [hloop, List.append_nil]
  · rw [← handOf_goto hold hnew sender]
    exact handOf_congr hcalls sender

/-- **The push of `ShutDown`**: it comes behind the messages of the sender. -/
theorem ShutdownInv.push_shutdownInLoop (h : s.ShutdownInv sender) {t : T}
    (hcall : s.calls t = .shutDownSet) (hsend : s'.SendInv) (hhand : s.handOf sender = [])
    (hconn : s'.conn = s.conn) (hcalls : s'.calls = (s.goto t .returning).calls)
    (hqueue : s'.loop.queue = s.loop.queue ++ [.shutdownInLoop]) : s'.ShutdownInv sender := by
  have hstate : s'.conn.state ≠ .eConnected := by
    rw [hconn]
    exact h.state_of_set t hcall
  have hhand' : s'.handOf sender = [] := by
    have hold : inHand (s.calls t) = [] := by
      rw [hcall]
      rfl
    have hgoto : (s.goto t .returning).handOf sender = s.handOf sender := handOf_goto hold rfl sender
    rw [← hhand, ← hgoto]
    exact handOf_congr hcalls sender
  refine ⟨hsend, ?_, ?_, fun _ => hstate, fun u _ => hstate, ?_, fun _ => hhand'⟩
  · rw [hconn, h.outputBuffer_eq]
  · rw [hconn, h.isWriting_eq]
  · rw [hqueue, List.pairwise_append]
    refine ⟨h.queue_order, List.pairwise_singleton _ _, fun f _ g hg _ hof => ?_⟩
    obtain ⟨m, hm, -⟩ := hof
    rw [List.mem_singleton.mp hg] at hm
    cases hm

/-- **A functor is called**: a message is sent at once, and a `__ShutdownInLoop` finds everything
delivered. -/
theorem ShutdownInv.runFunctor (h : s.ShutdownInv sender) {cb : Functor T}
    {rest : List (Functor T)} {result : ℤ} (hsend : s'.SendInv)
    (hcons : s.loop.functors = cb :: rest) (hall : offered s.loop.functors ≤ result.toNat)
    (hrun : ConnectionLoop.runFunctor
      { s with loop := CEventLoop.Action.callFunctor.next s.loop } result cb = .ok s') :
    s'.ShutdownInv sender ∧ (s'.conn.shutdowns ≠ s.conn.shutdowns → s'.Delivered sender) := by
  obtain ⟨-, hqueue⟩ := CEventLoop.queue_callFunctor hcons
  set loop := CEventLoop.Action.callFunctor.next s.loop with hloop
  -- the rest of the queue has no new `__ShutdownInLoop` and keeps its order
  have htail : ∀ s'' : ConnectionLoop T, s''.SendInv → s''.loop = loop → s''.calls = s.calls →
      s''.conn.outputBuffer = [] → s''.conn.channel.isWriting = false →
      (s''.conn.state = .eConnected → s.conn.state = .eConnected) → s''.ShutdownInv sender := by
    intro s'' hsend hloop' hcalls hbuffer hwriting hstate
    have hmem : Functor.shutdownInLoop ∈ s''.loop.queue → .shutdownInLoop ∈ s.loop.queue := by
      intro hin
      rw [hqueue, ← hloop']
      exact List.mem_cons_of_mem _ hin
    refine ⟨hsend, hbuffer, hwriting, fun hin hconn => h.state_of_mem (hmem hin) (hstate hconn),
      fun t ht hconn => h.state_of_set t (by rw [← hcalls]; exact ht) (hstate hconn), ?_,
      fun hin => ?_⟩
    · have horder := h.queue_order
      rw [hqueue] at horder
      rw [hloop']
      exact horder.of_cons
    · rw [← h.handOf_eq (hmem hin)]
      exact handOf_congr hcalls sender
  cases cb with
  | sendInLoop m =>
      unfold ConnectionLoop.runFunctor at hrun
      split_ifs at hrun with howners
      obtain ⟨conn, hconn, hrun⟩ := bind_eq_ok_iff.mp hrun
      rw [hcons] at hall
      have htaken := hconn.symm.trans
        (CTcpConnection.sendInLoop_of_length_le h.writesDirectly hall)
      cases Except.ok.inj htaken
      cases Except.ok.inj hrun
      exact ⟨htail _ hsend rfl rfl h.outputBuffer_eq h.isWriting_eq id, fun hne => absurd rfl hne⟩
  | shutdownInLoop =>
      unfold ConnectionLoop.runFunctor at hrun
      split_ifs at hrun with howners
      cases Except.ok.inj hrun
      have hinv := htail { s with loop := loop, conn := s.conn.shutdownInLoop } hsend rfl rfl (by
        rw [CTcpConnection.shutdownInLoop_eq]
        exact h.outputBuffer_eq) (by
        rw [CTcpConnection.shutdownInLoop_eq]
        exact h.isWriting_eq) (by
        rw [CTcpConnection.shutdownInLoop_eq]
        exact id)
      refine ⟨hinv, fun _ => hinv.delivered ?_ (ofSender_messages_eq_nil fun f hf hof => ?_)⟩
      · have hmem : Functor.shutdownInLoop ∈ s.loop.queue := by
          rw [hqueue]
          exact List.mem_cons_self
        rw [← h.handOf_eq hmem]
        rfl
      · have horder := h.queue_order
        rw [hqueue, List.pairwise_cons] at horder
        exact horder.1 f hf rfl hof
  | connectDestroyed =>
      obtain ⟨⟨conn, callback⟩, hdestroyed, hrun⟩ := bind_eq_ok_iff.mp hrun
      obtain ⟨conn', hremove, hrun⟩ := bind_eq_ok_iff.mp hrun
      cases Except.ok.inj hrun
      obtain ⟨rfl, -⟩ := CTcpConnection.connectDestroyed_ok hdestroyed hremove
      refine ⟨htail _ hsend rfl rfl h.outputBuffer_eq isWriting_noneEvent nofun,
        fun hne => absurd rfl hne⟩
  | other =>
      cases Except.ok.inj hrun
      exact ⟨htail _ hsend rfl rfl h.outputBuffer_eq h.isWriting_eq id, fun hne => absurd rfl hne⟩

/-- **`Send` in the loop thread**: the message is sent at once. -/
theorem ShutdownInv.loopSend (h : s.ShutdownInv sender) {rMessage : List Byte} {result : ℤ}
    (hsend : s'.SendInv) (hall : s.conn.state = .eConnected → rMessage.length ≤ result.toNat)
    (hrun : s.loopSend rMessage result = .ok s') :
    s'.ShutdownInv sender ∧ s'.conn.shutdowns = s.conn.shutdowns := by
  unfold ConnectionLoop.loopSend at hrun
  split_ifs at hrun with hstate
  · obtain ⟨conn, hconn, hrun⟩ := bind_eq_ok_iff.mp hrun
    rw [CTcpConnection.send_of_eConnected hstate] at hconn
    have htaken := hconn.symm.trans
      (CTcpConnection.sendInLoop_of_length_le h.writesDirectly (hall hstate))
    cases Except.ok.inj htaken
    cases Except.ok.inj hrun
    exact ⟨h.of_append hsend h.outputBuffer_eq h.isWriting_eq id (fun _ => Or.inl) []
      (List.append_nil _).symm nofun (Or.inl (handOf_congr rfl sender)), rfl⟩
  · cases Except.ok.inj hrun
    exact ⟨h, rfl⟩

/-- **The test of `m_eState`**: while `Send` still accepts, no `__ShutdownInLoop` is queued. -/
theorem ShutdownInv.test (h : s.ShutdownInv sender) {t : T} (hpc : (s.calls t).AtTest)
    (hsend : (s.test t).SendInv) :
    (s.test t).ShutdownInv sender ∧ (s.test t).conn.shutdowns = s.conn.shutdowns := by
  rcases test_cases hpc with ⟨rMessage, hstate, heq⟩ | ⟨pc, hpc', heq⟩
  · have hne : CallPc.sendAccepted (s.nextMessage (some t) rMessage) ≠ .shutDownSet := nofun
    rw [heq] at hsend ⊢
    exact ⟨h.of_append hsend h.outputBuffer_eq h.isWriting_eq id
      (fun u hu => Or.inl (goto_ne_shutDownSet hne u hu)) [] (List.append_nil _).symm nofun
      (Or.inr (Or.inr hstate)), rfl⟩
  · have hne : pc ≠ .shutDownSet ∧ inHand pc = [] := by
      rcases hpc' with rfl | rfl
      · exact ⟨nofun, rfl⟩
      · exact ⟨nofun, rfl⟩
    rw [heq] at hsend ⊢
    exact ⟨h.of_goto hsend rfl rfl rfl (inHand_of_atTest hpc) hne.2 hne.1, rfl⟩

/-- **The push of `Send` or `ShutDown`.** -/
theorem ShutdownInv.threadPush (h : s.ShutdownInv sender) {t : T} (hthread : s.loop.threads t = .idle)
    (hcomplete : s.calls t = .shutDownSet → s.handOf sender = [])
    (hsend : (s.threadPush t).SendInv) :
    (s.threadPush t).ShutdownInv sender ∧ (s.threadPush t).conn.shutdowns = s.conn.shutdowns := by
  unfold ConnectionLoop.threadPush at hsend ⊢
  cases hcall : s.calls t with
  | sendAccepted m =>
      rw [hcall] at hsend
      have hst : CEventLoop.Step s.loop (.threadQueueInLoop t (.sendInLoop m)) _ := ⟨hthread, rfl⟩
      have hqueue := (h.send.control.queue_step hst rfl).2
      have hpc : (CallPc.returning : CallPc T) ≠ .shutDownSet := nofun
      refine ⟨h.of_append hsend h.outputBuffer_eq h.isWriting_eq id
        (fun u hu => Or.inl (goto_ne_shutDownSet hpc u hu)) [.sendInLoop m] hqueue
        (fun f hf => ?_) ?_, rfl⟩
      · rw [List.mem_singleton] at hf
        subst hf
        refine ⟨nofun, fun hin hof => ?_⟩
        -- the message was in the sender's hands
        obtain ⟨n, hn, hsender⟩ := hof
        cases hn
        have hmine : m.sender = some t := by
          refine h.send.accepted_sender (some t) m ?_
          rw [← h.send.others_eq t, hcall]
          exact List.mem_append_right _ (List.mem_singleton_self m)
        have hnil := h.handOf_eq hin
        rw [← hsender, hmine, handOf, hcall] at hnil
        cases hnil
      · cases sender with
        | none => exact Or.inl rfl
        | some u =>
            by_cases hut : u = t
            · subst hut
              exact Or.inr (Or.inl (congrArg inHand (goto_calls_self s u .returning)))
            · exact Or.inl (congrArg inHand (goto_calls_of_ne s hut .returning))
  | shutDownSet =>
      rw [hcall] at hsend
      have hst : CEventLoop.Step s.loop (.threadQueueInLoop t .shutdownInLoop) _ := ⟨hthread, rfl⟩
      exact ⟨h.push_shutdownInLoop hcall hsend (hcomplete hcall) rfl rfl
        (h.send.control.queue_step hst rfl).2, rfl⟩
  | idle | send | shutDown | shutDownAccepted | returning => exact ⟨h, rfl⟩

/-- A step that leaves the queue, the threads and the connection alone. -/
theorem ShutdownInv.of_same (h : s.ShutdownInv sender) (hsend : s'.SendInv)
    (hqueue : s'.loop.queue = s.loop.queue) (hcalls : s'.calls = s.calls)
    (hconn : s'.conn = s.conn) :
    s'.ShutdownInv sender ∧ s'.conn.shutdowns = s.conn.shutdowns := by
  refine ⟨h.of_append hsend ?_ ?_ ?_ (fun t ht => Or.inl ?_) [] ?_ nofun
    (Or.inl (handOf_congr hcalls sender)), ?_⟩
  · rw [hconn, h.outputBuffer_eq]
  · rw [hconn, h.isWriting_eq]
  · rw [hconn]
    exact id
  · rw [← hcalls]
    exact ht
  · rw [hqueue, List.append_nil]
  · rw [hconn]

/-- **The read side** leaves the write side alone and queues at most `ConnectDestroyed`. -/
theorem ShutdownInv.readSide (h : s.ShutdownInv sender) {a : Action T} (hsend : s'.SendInv)
    (ha : (∃ result, a = .handleRead result) ∨ a = .handleClose) (hin : s.InHandler)
    (hrun : a.run s = .ok s') :
    s'.ShutdownInv sender ∧ s'.conn.shutdowns = s.conn.shutdowns := by
  obtain ⟨conn, hconn, hs'⟩ := readSide_of_run ha hrun
  have hbuffer : conn.outputBuffer = [] := hconn.outputBuffer_eq.trans h.outputBuffer_eq
  have hstate : conn.state = .eConnected → s.conn.state = .eConnected := by
    rw [hconn.state_eq]
    exact id
  rcases hs' with rfl | hclose
  · exact ⟨h.of_append hsend hbuffer (hconn.isWriting_eq h.isWriting_eq) hstate
      (fun _ => Or.inl) [] (List.append_nil _).symm nofun (Or.inl (handOf_congr rfl sender)),
      hconn.shutdowns_eq⟩
  · obtain ⟨-, rfl⟩ := removeConnection_ok hclose
    have hqueue : CEventLoop.Step s.loop (.queueInLoop .connectDestroyed) _ :=
      ⟨⟨Or.inl hin.1, hin.2.1⟩, rfl⟩
    refine ⟨h.of_append hsend hbuffer (hconn.isWriting_eq h.isWriting_eq) hstate
      (fun _ => Or.inl) [.connectDestroyed] (h.send.control.queue_step hqueue rfl).2
      (fun f hf => ?_) (Or.inl (handOf_congr rfl sender)), hconn.shutdowns_eq⟩
    rw [List.mem_singleton] at hf
    subst hf
    exact ⟨nofun, fun _ hof => by obtain ⟨m, hm, -⟩ := hof; cases hm⟩

/-- **`ShutDown` in the loop thread** shuts down at once, where everything is delivered. -/
theorem ShutdownInv.shutDown (h : s.ShutdownInv sender)
    (hsend : SendInv { s with conn := s.conn.shutDown })
    (hok : s.conn.state = .eConnected → s.handOf sender = [] ∧
      ofSender sender (messages s.loop.queue) = []) :
    ShutdownInv sender { s with conn := s.conn.shutDown } ∧
      (s.conn.shutDown.shutdowns = s.conn.shutdowns ∨
        Delivered sender { s with conn := s.conn.shutDown }) := by
  have hshut := CTcpConnection.shutDown_of_not_writing h.isWriting_eq
  by_cases hstate : s.conn.state = .eConnected
  · rw [if_pos hstate] at hshut
    have hinv : ShutdownInv sender { s with conn := s.conn.shutDown } := by
      refine h.of_append hsend ?_ ?_ (fun _ => hstate) (fun _ => Or.inl) []
        (List.append_nil _).symm nofun (Or.inl (handOf_congr rfl sender))
      · rw [hshut]
        exact h.outputBuffer_eq
      · rw [hshut]
        exact h.isWriting_eq
    obtain ⟨hhand, hqueue⟩ := hok hstate
    exact ⟨hinv, Or.inr (hinv.delivered ((handOf_congr rfl sender).trans hhand) hqueue)⟩
  · rw [if_neg hstate] at hshut
    obtain ⟨hinv, hshutdowns⟩ := h.of_same hsend rfl rfl hshut
    exact ⟨hinv, Or.inl hshutdowns⟩

end step

/-- **Every step that keeps the sender's messages safe keeps the invariant, and if it shuts down the
write side, everything is delivered.** -/
theorem ShutdownInv.step {sender : Option T} (s : ConnectionLoop T) (a : Action T)
    (s' : ConnectionLoop T) (h : s.ShutdownInv sender) (hok : a.Complete sender s)
    (hst : Step s a s') :
    s'.ShutdownInv sender ∧ (s'.conn.shutdowns ≠ s.conn.shutdowns → s'.Delivered sender) := by
  have hsend : s'.SendInv := SendInv.step s a s' h.send hst
  suffices hkeep : s'.ShutdownInv sender ∧
      (s'.conn.shutdowns = s.conn.shutdowns ∨ s'.Delivered sender) from
    ⟨hkeep.1, hkeep.2.resolve_left⟩
  obtain ⟨⟨-, hpossible⟩, rfl⟩ := hst
  rcases hrun : a.run s with e | s'
  · rw [next_of_error hrun] at hsend ⊢
    exact (h.of_same hsend rfl rfl rfl).imp_right Or.inl
  rw [next_of_ok hrun] at hsend ⊢
  cases a with
  | loop b =>
      cases Except.ok.inj hrun
      refine ⟨h.of_append hsend h.outputBuffer_eq h.isWriting_eq id (fun _ => Or.inl) _
        (h.send.control.queue_step ⟨hpossible.1, rfl⟩ hpossible.2.isCall_eq).2 (fun f hf => ?_)
        (Or.inl (handOf_congr rfl sender)), Or.inl rfl⟩
      rw [hpossible.2.eq_other f hf]
      exact ⟨nofun, fun _ hof => by obtain ⟨m, hm, -⟩ := hof; cases hm⟩
  | poll readable reported =>
      cases Except.ok.inj hrun
      refine (h.of_same hsend ?_ rfl rfl).imp_right Or.inl
      exact (h.send.control.queue_step ⟨hpossible.1, rfl⟩ rfl).2.trans (List.append_nil _)
  | handleRead result =>
      exact (h.readSide hsend (Or.inl ⟨result, rfl⟩) hpossible hrun).imp_right Or.inl
  | handleClose => exact (h.readSide hsend (Or.inr rfl) hpossible hrun).imp_right Or.inl
  | handleWrite n =>
      obtain ⟨conn, hconn, hrun⟩ := bind_eq_ok_iff.mp hrun
      have hnothing := CTcpConnection.handleWrite_of_not_writing h.isWriting_eq n
      cases Except.ok.inj hrun
      have hsame : conn = s.conn := Except.ok.inj (hconn.symm.trans hnothing)
      exact (h.of_same hsend rfl rfl hsame).imp_right Or.inl
  | handled =>
      cases Except.ok.inj hrun
      exact (h.of_same hsend rfl rfl rfl).imp_right Or.inl
  | callFunctor result =>
      obtain ⟨cb, rest, hcons⟩ := List.exists_cons_of_ne_nil hpossible.1.2
      unfold Action.run at hrun
      rw [hcons] at hrun
      exact (h.runFunctor hsend hcons hok hrun).imp_right or_iff_not_imp_left.mpr
  | send rMessage result => exact (h.loopSend hsend hok hrun).imp_right Or.inl
  | shutDown =>
      cases Except.ok.inj hrun
      exact h.shutDown hsend hok
  | threadSend t rMessage =>
      cases Except.ok.inj hrun
      refine ⟨h.of_goto hsend rfl rfl rfl ?_ rfl nofun, Or.inl rfl⟩
      rw [hpossible.1]
      rfl
  | threadShutDown t =>
      cases Except.ok.inj hrun
      refine ⟨h.of_goto hsend rfl rfl rfl ?_ rfl nofun, Or.inl rfl⟩
      rw [hpossible.1]
      rfl
  | threadTest t =>
      cases Except.ok.inj hrun
      exact (h.test hpossible hsend).imp_right Or.inl
  | threadSetState t =>
      cases Except.ok.inj hrun
      refine ⟨h.of_append hsend h.outputBuffer_eq h.isWriting_eq nofun (fun _ _ => Or.inr nofun) []
        (List.append_nil _).symm nofun (Or.inl (handOf_goto ?_ rfl sender)), Or.inl rfl⟩
      rw [show s.calls t = _ from hpossible]
      rfl
  | threadPush t =>
      cases Except.ok.inj hrun
      exact (h.threadPush hpossible.2 hok hsend).imp_right Or.inl
  | threadReturn t =>
      cases Except.ok.inj hrun
      refine ⟨h.of_goto hsend rfl rfl rfl ?_ rfl nofun, Or.inl rfl⟩
      rw [hpossible.1]
      rfl

/-- **Graceful shutdown.** Let every step of a run keep the messages of a sender safe: every
`__SendInLoop` writes its whole message at once, and no `ShutDown` of somebody else overtakes a
message of the sender. Then whenever the write side of the socket is shut down, the output buffer is
empty and the kernel has taken every byte of every message of the sender that `Send` has accepted
(one that finds the connection in another state than `eConnected` drops its message). -/
theorem gracefulShutdown_run {s₀ s s' : ConnectionLoop T} {as : List (Action T)} {a : Action T}
    (sender : Option T) (h₀ : s₀.Initial) (hrun : Run Step s₀ as s) (hst : Step s a s')
    (hok : Along Step (fun s a => a.Complete sender s) s₀ (as ++ [a]))
    (hshut : s'.conn.shutdowns ≠ s.conn.shutdowns) :
    s'.conn.outputBuffer = [] ∧ s'.conn.taken = s'.executed.flatMap Message.bytes ∧
      ofSender sender s'.executed = s'.accepted sender := by
  have h : s.ShutdownInv sender :=
    hrun.invariant_along (fun s a s' h hok hst => (ShutdownInv.step s a s' h hok hst).1) hok.left
      (shutdownInv_of_initial h₀)
  obtain ⟨hbuffer, htaken, hexecuted⟩ := (ShutdownInv.step s a s' h (hok.last hrun) hst).2 hshut
  exact ⟨hbuffer, htaken, hexecuted⟩

/-- The theorem on a thread that sends two bytes and shuts down, where the kernel takes both. -/
theorem gracefulShutdown_whole : ∃ s s' : ConnectionLoop Unit,
    Run Step start [.threadSend () [1, 2], .threadTest (), .threadPush (),
      .loop (.threadWakeup () true), .threadReturn (), .threadShutDown (), .threadTest (),
      .threadSetState (), .threadPush (), .loop .enterDoPendingFunctors, .loop .swap,
      .callFunctor 2, .loop .returnFunctor] s ∧
    Step s (.callFunctor 0) s' ∧ s'.conn.shutdowns = 1 ∧ s'.conn.taken = [1, 2] ∧
    s'.conn.outputBuffer = [] := by
  set as : List (Action Unit) := [.threadSend () [1, 2], .threadTest (), .threadPush (),
    .loop (.threadWakeup () true), .threadReturn (), .threadShutDown (), .threadTest (),
    .threadSetState (), .threadPush (), .loop .enterDoPendingFunctors, .loop .swap,
    .callFunctor 2, .loop .returnFunctor] with has
  obtain ⟨s, hs, hen, hbefore, hafter, htaken⟩ : ∃ s : ConnectionLoop Unit, exec start as = some s ∧
      Action.Enabled s (.callFunctor 0) ∧ s.conn.shutdowns = 0 ∧
      (Action.next s (.callFunctor 0)).conn.shutdowns = 1 ∧
      (Action.next s (.callFunctor 0)).conn.taken = [1, 2] := ⟨_, rfl, by decide, rfl, rfl, rfl⟩
  have hok : Along Step (fun s a => Action.Complete (some ()) s a) start (as ++ [.callFunctor 0]) :=
    along_of_allNext (by decide)
  have hst : Step s (.callFunctor 0) _ := ⟨hen, rfl⟩
  refine ⟨s, _, run_of_exec hs, hst, hafter, htaken,
    (gracefulShutdown_run (some ()) initial_start (run_of_exec hs) hst hok ?_).1⟩
  rw [hbefore, hafter]
  decide

/-- **A message of two bytes of which the kernel takes one, and `ShutDown` behind it**, both in the
loop thread: the write side is shut down while the other byte is in the output buffer. -/
theorem not_gracefulShutdown_partial : ∃ s s' : ConnectionLoop Unit,
    Run Step start [.send [7, 8] 1] s ∧ Step s .shutDown s' ∧
    s'.conn.shutdowns = 1 ∧ s'.conn.taken = [7] ∧ s'.conn.outputBuffer = [8] ∧
    s'.accepted none = [⟨none, 0, [7, 8]⟩] := by
  obtain ⟨s, hs, hrest⟩ : ∃ s : ConnectionLoop Unit, exec start [.send [7, 8] 1] = some s ∧
      Action.Enabled s .shutDown ∧ (Action.shutDown.next s).conn.shutdowns = 1 ∧
      (Action.shutDown.next s).conn.taken = [7] ∧
      (Action.shutDown.next s).conn.outputBuffer = [8] ∧
      (Action.shutDown.next s).accepted none = [⟨none, 0, [7, 8]⟩] :=
    ⟨_, rfl, by decide, rfl, rfl, rfl, rfl⟩
  exact ⟨s, _, run_of_exec hs, ⟨hrest.1, rfl⟩, hrest.2⟩

end ConnectionLoop

end Neconet
