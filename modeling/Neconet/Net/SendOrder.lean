import Neconet.Net.ConnectionLoop

/-!
# The order of messages

`Send` loses, duplicates and reorders nothing, whatever the threads and the kernel do.

* `SendInv`: the bytes on their way are those of the executed messages, and thread by thread the
  executed messages, then those in the queue, then the one in the thread's hands are the accepted
  ones.
* `SendInv.of_same`: steps that touch neither bytes nor messages keep it.
* `sendOrder_run`: what follows for every run.
-/

set_option linter.unusedSectionVars false

namespace Neconet

open Transition

namespace ConnectionLoop

variable {T : Type} [DecidableEq T]

/-! ## Messages on their way -/

/-- The messages that functors carry. -/
def messages (fs : List (Functor T)) : List (Message T) := fs.filterMap Functor.message?

/-- The messages of one sender. -/
def ofSender (sender : Option T) (ms : List (Message T)) : List (Message T) :=
  ms.filter fun m => m.sender = sender

/-- The message that the thread has not pushed yet. -/
def inHand : CallPc T → List (Message T)
  | .sendAccepted m => [m]
  | _ => []

@[simp] theorem messages_append (fs gs : List (Functor T)) :
    messages (fs ++ gs) = messages fs ++ messages gs := List.filterMap_append

@[simp] theorem ofSender_append (sender : Option T) (ms ns : List (Message T)) :
    ofSender sender (ms ++ ns) = ofSender sender ms ++ ofSender sender ns := List.filter_append ..

/-- A message is one of its sender's. -/
theorem ofSender_singleton {sender : Option T} {m : Message T} (h : m.sender = sender) :
    ofSender sender [m] = [m] := by
  simp [ofSender, h]

/-- A message is none of another sender's. -/
theorem ofSender_singleton_of_ne {sender : Option T} {m : Message T} (h : m.sender ≠ sender) :
    ofSender sender [m] = [] := by
  simp [ofSender, h]

/-- Functors that are not about the connection carry no message. -/
theorem messages_eq_nil {fs : List (Functor T)} (h : ∀ f ∈ fs, f = .other) : messages fs = [] := by
  refine List.filterMap_eq_nil_iff.mpr fun f hf => ?_
  rw [h f hf]
  rfl

/-! ## The invariant -/

/-- No byte and no message is lost, duplicated or reordered. -/
structure SendInv (s : ConnectionLoop T) : Prop where
  /-- The flags of the loop agree with the position of the loop thread. -/
  control : s.loop.ControlInv
  /-- The bytes taken by the kernel, then those in the output buffer, are those of the executed
  messages. -/
  stream_eq : s.conn.stream = s.executed.flatMap Message.bytes
  /-- The loop thread's messages are executed when they are accepted. -/
  own_eq : ofSender none s.executed = s.accepted none
  /-- Another thread's messages are executed, in the queue, or in its hands. -/
  others_eq : ∀ t, ofSender (some t) (s.executed ++ messages s.loop.queue) ++ inHand (s.calls t) =
    s.accepted (some t)
  /-- Accepted messages are those of the sender, numbered. -/
  accepted_sender : ∀ sender, ∀ m ∈ s.accepted sender, m.sender = sender
  /-- Accepted messages are numbered in the order in which they were sent. -/
  accepted_num : ∀ sender, (s.accepted sender).map Message.num =
    List.range (s.accepted sender).length
  /-- The loop thread does not queue messages. -/
  queue_sender : ∀ m ∈ messages s.loop.queue, m.sender ≠ none
  /-- The functors of messages have run exactly for the executed messages of other threads. -/
  ran_eq : messages s.loop.ran = s.executed.filter fun m => m.sender ≠ none

/-- The invariant holds when the connection has been established. -/
theorem sendInv_of_initial {s : ConnectionLoop T} (h : s.Initial) : s.SendInv where
  control := by
    obtain ⟨as, hrun⟩ := h.loop_reachable
    exact hrun.invariant CEventLoop.ControlInv.step CEventLoop.controlInv_new
  stream_eq := by
    rw [h.conn_eq, h.executed_eq]
    rfl
  own_eq := by
    rw [h.executed_eq, h.accepted_eq]
    rfl
  others_eq t := by
    rw [h.executed_eq, h.accepted_eq, messages_eq_nil h.queue_eq, h.calls_eq]
    rfl
  accepted_sender sender m hm := by
    rw [h.accepted_eq] at hm
    cases hm
  accepted_num sender := by
    rw [h.accepted_eq]
    rfl
  queue_sender m hm := by
    rw [messages_eq_nil h.queue_eq] at hm
    cases hm
  ran_eq := by
    rw [messages_eq_nil h.ran_eq, h.executed_eq]
    rfl

section step

variable {s s' : ConnectionLoop T}

/-- `s'` has the same bytes and messages as `s`, and the loop is in order. -/
structure SameSends (s s' : ConnectionLoop T) : Prop where
  /-- The flags of the loop agree with the position of the loop thread. -/
  control : s'.loop.ControlInv
  /-- The bytes on their way are the same. -/
  stream_eq : s'.conn.stream = s.conn.stream
  /-- The executed messages are the same. -/
  executed_eq : s'.executed = s.executed
  /-- The accepted messages are the same. -/
  accepted_eq : s'.accepted = s.accepted
  /-- The messages in the queue are the same. -/
  queue_eq : messages s'.loop.queue = messages s.loop.queue
  /-- The messages of the functors that have run are the same. -/
  ran_eq : messages s'.loop.ran = messages s.loop.ran
  /-- The messages in the threads' hands are the same. -/
  inHand_eq : ∀ t, inHand (s'.calls t) = inHand (s.calls t)

/-- What touches neither bytes nor messages keeps the invariant. -/
theorem SendInv.of_same (h : s.SendInv) (hsame : SameSends s s') : s'.SendInv where
  control := hsame.control
  stream_eq := by rw [hsame.stream_eq, hsame.executed_eq, h.stream_eq]
  own_eq := by rw [hsame.executed_eq, hsame.accepted_eq, h.own_eq]
  others_eq t := by
    rw [hsame.executed_eq, hsame.accepted_eq, hsame.queue_eq, hsame.inHand_eq, h.others_eq]
  accepted_sender := by
    rw [hsame.accepted_eq]
    exact h.accepted_sender
  accepted_num := by
    rw [hsame.accepted_eq]
    exact h.accepted_num
  queue_sender := by
    rw [hsame.queue_eq]
    exact h.queue_sender
  ran_eq := by rw [hsame.ran_eq, hsame.executed_eq, h.ran_eq]

/-- A step of the loop that pushes no message and calls no functor. -/
theorem SameSends.of_loop {b : CEventLoop.Action (Functor T) T} (hctl : s.loop.ControlInv)
    (hst : CEventLoop.Step s.loop b s'.loop) (hcall : b.isCall = false)
    (hpushed : messages b.pushed.toList = []) (hconn : s'.conn.stream = s.conn.stream)
    (hexecuted : s'.executed = s.executed) (haccepted : s'.accepted = s.accepted)
    (hcalls : ∀ t, inHand (s'.calls t) = inHand (s.calls t)) : SameSends s s' where
  control := hctl.step _ b _ hst
  stream_eq := hconn
  executed_eq := hexecuted
  accepted_eq := haccepted
  queue_eq := by
    rw [(hctl.queue_step hst hcall).2, messages_append, hpushed, List.append_nil]
  ran_eq := by rw [(hctl.queue_step hst hcall).1]
  inHand_eq := hcalls

/-- A step that leaves the loop alone, and all bytes and messages. -/
theorem SameSends.of_loop_eq (hctl : s.loop.ControlInv) (hloop : s'.loop = s.loop)
    (hconn : s'.conn.stream = s.conn.stream)
    (hexecuted : s'.executed = s.executed) (haccepted : s'.accepted = s.accepted)
    (hcalls : ∀ t, inHand (s'.calls t) = inHand (s.calls t)) : SameSends s s' where
  control := by rwa [hloop]
  stream_eq := hconn
  executed_eq := hexecuted
  accepted_eq := haccepted
  queue_eq := by rw [hloop]
  ran_eq := by rw [hloop]
  inHand_eq := hcalls

/-- A thread in front of the test has no message in its hands. -/
theorem inHand_of_atTest {pc : CallPc T} (h : pc.AtTest) : inHand pc = [] := by
  cases pc with
  | sendAccepted m => exact h.elim
  | idle | send | shutDown | shutDownAccepted | shutDownSet | returning => rfl

/-- A thread that goes on without a message in its hands, before and after. -/
theorem inHand_goto {t : T} {pc : CallPc T} (hold : inHand (s.calls t) = []) (hnew : inHand pc = [])
    (u : T) : inHand ((s.goto t pc).calls u) = inHand (s.calls u) := by
  by_cases hut : u = t
  · subst hut
    rw [goto_calls_self, hold, hnew]
  · rw [goto_calls_of_ne s hut]

/-! ## The steps that move messages -/

/-- **A functor is called**: a message moves from the front of the queue to the executed ones. -/
theorem SendInv.runFunctor {cb : Functor T} {rest : List (Functor T)} {result : ℤ} (h : s.SendInv)
    (hen : (CEventLoop.Action.callFunctor).Enabled s.loop) (hcons : s.loop.functors = cb :: rest)
    (hrun : runFunctor { s with loop := CEventLoop.Action.callFunctor.next s.loop } result cb =
      .ok s') : s'.SendInv := by
  have hctl : (CEventLoop.Action.callFunctor.next s.loop).ControlInv :=
    h.control.step _ .callFunctor _ ⟨hen, rfl⟩
  obtain ⟨hran, hqueue⟩ := CEventLoop.queue_callFunctor hcons
  -- a functor without a message leaves all messages where they are
  have hplain : cb.message? = none → messages s.loop.queue =
      messages (CEventLoop.Action.callFunctor.next s.loop).queue ∧
      messages (CEventLoop.Action.callFunctor.next s.loop).ran = messages s.loop.ran := by
    intro hnone
    rw [hqueue, hran]
    simp [messages, hnone]
  cases cb with
  | sendInLoop m =>
      unfold ConnectionLoop.runFunctor at hrun
      split_ifs at hrun with howners
      obtain ⟨conn, hconn, hrun⟩ := bind_eq_ok_iff.mp hrun
      obtain ⟨channel, rfl, -⟩ := CTcpConnection.sendInLoop_ok hconn
      cases Except.ok.inj hrun
      have hq : messages s.loop.queue =
          [m] ++ messages (CEventLoop.Action.callFunctor.next s.loop).queue := by
        rw [hqueue]
        rfl
      have hm : m.sender ≠ none := h.queue_sender m (by rw [hq]; simp)
      constructor
      · exact hctl
      · change (s.conn.written m.bytes result).stream = _
        rw [CTcpConnection.stream_written, h.stream_eq, List.flatMap_append]
        simp
      · change ofSender none (s.executed ++ [m]) = s.accepted none
        rw [ofSender_append, ofSender_singleton_of_ne hm, List.append_nil, h.own_eq]
      · intro t
        rw [← h.others_eq t, hq, ← List.append_assoc]
      · exact h.accepted_sender
      · exact h.accepted_num
      · intro n hn
        exact h.queue_sender n (by rw [hq]; exact List.mem_append_right _ hn)
      · change messages (CEventLoop.Action.callFunctor.next s.loop).ran =
          (s.executed ++ [m]).filter _
        rw [hran, messages_append, h.ran_eq, List.filter_append]
        simp [messages, Functor.message?, hm]
  | shutdownInLoop =>
      unfold ConnectionLoop.runFunctor at hrun
      split_ifs at hrun with howners
      cases Except.ok.inj hrun
      refine h.of_same ⟨hctl, ?_, rfl, rfl, (hplain rfl).1.symm, (hplain rfl).2, fun _ => rfl⟩
      change s.conn.shutdownInLoop.stream = s.conn.stream
      rw [CTcpConnection.shutdownInLoop_eq]
      rfl
  | connectDestroyed =>
      obtain ⟨⟨conn, callback⟩, hdestroyed, hrun⟩ := bind_eq_ok_iff.mp hrun
      obtain ⟨conn', hremove, hrun⟩ := bind_eq_ok_iff.mp hrun
      cases Except.ok.inj hrun
      refine h.of_same ⟨hctl, ?_, rfl, rfl, (hplain rfl).1.symm, (hplain rfl).2, fun _ => rfl⟩
      change conn'.stream = s.conn.stream
      rw [(CTcpConnection.connectDestroyed_ok hdestroyed hremove).1]
      rfl
  | other =>
      cases Except.ok.inj hrun
      exact h.of_same ⟨hctl, rfl, rfl, rfl, (hplain rfl).1.symm, (hplain rfl).2, fun _ => rfl⟩

@[simp] theorem accept_accepted_self (s : ConnectionLoop T) (sender : Option T)
    (rMessage : List Byte) : (s.accept sender rMessage).accepted sender =
      s.accepted sender ++ [s.nextMessage sender rMessage] :=
  Function.update_self ..

theorem accept_accepted_of_ne (s : ConnectionLoop T) {sender u : Option T} (h : u ≠ sender)
    (rMessage : List Byte) : (s.accept sender rMessage).accepted u = s.accepted u :=
  Function.update_of_ne h ..

/-- An accepted message is its sender's. -/
theorem SendInv.accept_sender (h : s.SendInv) (sender : Option T) (rMessage : List Byte)
    (u : Option T) : ∀ m ∈ (s.accept sender rMessage).accepted u, m.sender = u := by
  intro m hm
  by_cases hu : u = sender
  · subst hu
    rw [accept_accepted_self, List.mem_append, List.mem_singleton] at hm
    rcases hm with hm | rfl
    · exact h.accepted_sender u m hm
    · rfl
  · rw [accept_accepted_of_ne s hu] at hm
    exact h.accepted_sender u m hm

/-- Accepted messages stay numbered. -/
theorem SendInv.accept_num (h : s.SendInv) (sender : Option T) (rMessage : List Byte)
    (u : Option T) : ((s.accept sender rMessage).accepted u).map Message.num =
      List.range ((s.accept sender rMessage).accepted u).length := by
  by_cases hu : u = sender
  · subst hu
    simp [h.accepted_num, List.range_succ, nextMessage]
  · rw [accept_accepted_of_ne s hu]
    exact h.accepted_num u

/-- **`Send` in the loop thread**: the message is accepted and executed at once. -/
theorem SendInv.loopSend {rMessage : List Byte} {result : ℤ} (h : s.SendInv)
    (hrun : s.loopSend rMessage result = .ok s') : s'.SendInv := by
  unfold ConnectionLoop.loopSend at hrun
  split_ifs at hrun with hstate
  · obtain ⟨conn, hconn, hrun⟩ := bind_eq_ok_iff.mp hrun
    rw [CTcpConnection.send_of_eConnected hstate] at hconn
    obtain ⟨channel, rfl, -⟩ := CTcpConnection.sendInLoop_ok hconn
    cases Except.ok.inj hrun
    set m := s.nextMessage none rMessage with hm
    have hsender : m.sender = none := rfl
    constructor
    · exact h.control
    · change (s.conn.written rMessage result).stream = (s.executed ++ [m]).flatMap Message.bytes
      rw [CTcpConnection.stream_written, h.stream_eq, List.flatMap_append]
      simp [hm, nextMessage]
    · change ofSender none (s.executed ++ [m]) = (s.accept none rMessage).accepted none
      rw [ofSender_append, ofSender_singleton hsender, accept_accepted_self, h.own_eq]
    · intro t
      have hne : m.sender ≠ some t := (Option.some_ne_none t).symm
      change ofSender (some t) (s.executed ++ [m] ++ messages s.loop.queue) ++ inHand (s.calls t) =
        (s.accept none rMessage).accepted (some t)
      rw [accept_accepted_of_ne s (Option.some_ne_none t), ← h.others_eq t]
      simp only [ofSender_append, ofSender_singleton_of_ne hne, List.append_nil]
    · exact h.accept_sender none rMessage
    · exact h.accept_num none rMessage
    · exact h.queue_sender
    · change messages s.loop.ran = (s.executed ++ [m]).filter _
      rw [h.ran_eq, List.filter_append]
      simp [hsender]
  · cases Except.ok.inj hrun
    exact h

/-- **The test in `Send`**: an accepted message is in the thread's hands. -/
theorem SendInv.test {t : T} (h : s.SendInv) (hpc : (s.calls t).AtTest) : (s.test t).SendInv := by
  have hold := inHand_of_atTest hpc
  rcases test_cases hpc with ⟨rMessage, -, heq⟩ | ⟨pc, hpc, heq⟩
  · rw [heq]
    constructor
    · exact h.control
    · exact h.stream_eq
    · change ofSender none s.executed = (s.accept (some t) rMessage).accepted none
      rw [accept_accepted_of_ne s (Option.some_ne_none t).symm, h.own_eq]
    · intro u
      change ofSender (some u) (s.executed ++ messages s.loop.queue) ++
        inHand (Function.update s.calls t _ u) = (s.accept (some t) rMessage).accepted (some u)
      by_cases hut : u = t
      · subst hut
        rw [Function.update_self, accept_accepted_self, ← h.others_eq u, hold, List.append_nil]
        rfl
      · have hne : some u ≠ some t := fun heq => hut (Option.some.inj heq)
        rw [Function.update_of_ne hut, accept_accepted_of_ne s hne, h.others_eq]
    · exact h.accept_sender (some t) rMessage
    · exact h.accept_num (some t) rMessage
    · exact h.queue_sender
    · exact h.ran_eq
  · have hnew : inHand pc = [] := by rcases hpc with rfl | rfl <;> rfl
    rw [heq]
    exact h.of_same (.of_loop_eq h.control rfl rfl rfl rfl (inHand_goto hold hnew))

/-- **The push in `Send`**: the message goes from the thread's hands to the end of the queue. -/
theorem SendInv.threadPush {t : T} (h : s.SendInv) (hthread : s.loop.threads t = .idle) :
    (s.threadPush t).SendInv := by
  unfold ConnectionLoop.threadPush
  cases hfunctor : (s.calls t).functor? with
  | none => exact h
  | some cb =>
      have hst : CEventLoop.Step s.loop (.threadQueueInLoop t cb) _ := ⟨hthread, rfl⟩
      have hctl := h.control.step _ _ _ hst
      obtain ⟨hran, hqueue⟩ := h.control.queue_step hst rfl
      cases hcall : s.calls t with
      | sendAccepted m =>
          rw [hcall] at hfunctor
          cases hfunctor
          have hmine : m.sender = some t := by
            refine h.accepted_sender (some t) m ?_
            rw [← h.others_eq t, hcall]
            exact List.mem_append_right _ (List.mem_singleton_self m)
          set loop := (CEventLoop.Action.threadQueueInLoop t (.sendInLoop m)).next s.loop
          have hqueue' : messages loop.queue = messages s.loop.queue ++ [m] := by
            rw [hqueue, messages_append]
            rfl
          constructor
          · exact hctl
          · exact h.stream_eq
          · exact h.own_eq
          · intro u
            change ofSender (some u) (s.executed ++ messages loop.queue) ++
              inHand (Function.update s.calls t .returning u) = s.accepted (some u)
            rw [hqueue', ← List.append_assoc, ofSender_append, ← h.others_eq u]
            by_cases hut : u = t
            · subst hut
              rw [ofSender_singleton hmine, Function.update_self, hcall]
              exact List.append_nil _
            · have hne : m.sender ≠ some u := fun heq => hut (Option.some.inj (heq.symm.trans hmine))
              rw [ofSender_singleton_of_ne hne, Function.update_of_ne hut, List.append_nil]
          · exact h.accepted_sender
          · exact h.accepted_num
          · intro n hn
            change n ∈ messages loop.queue at hn
            rw [hqueue', List.mem_append, List.mem_singleton] at hn
            rcases hn with hn | rfl
            · exact h.queue_sender n hn
            · rw [hmine]
              exact Option.some_ne_none t
          · exact (congrArg messages hran).trans h.ran_eq
      | shutDownSet =>
          rw [hcall] at hfunctor
          cases hfunctor
          refine h.of_same (.of_loop h.control hst rfl rfl rfl rfl rfl (inHand_goto ?_ rfl))
          rw [hcall]
          rfl
      | idle | send | shutDown | shutDownAccepted | returning =>
          rw [hcall] at hfunctor
          cases hfunctor

/-- **The read side** leaves the stream alone and queues at most `ConnectDestroyed`. -/
theorem SendInv.readSide {a : Action T} (h : s.SendInv)
    (ha : (∃ result, a = .handleRead result) ∨ a = .handleClose) (hin : s.InHandler)
    (hrun : a.run s = .ok s') : s'.SendInv := by
  obtain ⟨conn, hconn, rfl | hclose⟩ := readSide_of_run ha hrun
  · exact h.of_same (.of_loop_eq h.control rfl hconn.stream_eq rfl rfl fun _ => rfl)
  · obtain ⟨-, rfl⟩ := removeConnection_ok hclose
    have hqueue : CEventLoop.Step s.loop (.queueInLoop .connectDestroyed) _ :=
      ⟨⟨Or.inl hin.1, hin.2.1⟩, rfl⟩
    exact h.of_same (.of_loop h.control hqueue rfl rfl hconn.stream_eq rfl rfl fun _ => rfl)

/-- **Every step loses, duplicates and reorders nothing.** -/
theorem SendInv.step (s : ConnectionLoop T) (a : Action T) (s' : ConnectionLoop T) (h : s.SendInv)
    (hst : Step s a s') : s'.SendInv := by
  obtain ⟨⟨-, hpossible⟩, rfl⟩ := hst
  refine next_induction h (fun e h => ?_) fun s' hrun => ?_
  · exact h.of_same (.of_loop_eq h.control rfl rfl rfl rfl fun _ => rfl)
  cases a with
  | loop b =>
      cases Except.ok.inj hrun
      exact h.of_same (.of_loop h.control ⟨hpossible.1, rfl⟩ hpossible.2.isCall_eq
        (messages_eq_nil hpossible.2.eq_other) rfl rfl rfl fun _ => rfl)
  | poll readable reported =>
      cases Except.ok.inj hrun
      exact h.of_same (.of_loop h.control ⟨hpossible.1, rfl⟩ rfl rfl rfl rfl rfl fun _ => rfl)
  | handleRead result => exact h.readSide (Or.inl ⟨result, rfl⟩) hpossible hrun
  | handleClose => exact h.readSide (Or.inr rfl) hpossible hrun
  | handleWrite n =>
      obtain ⟨conn, hconn, hrun⟩ := bind_eq_ok_iff.mp hrun
      cases Except.ok.inj hrun
      exact h.of_same (.of_loop_eq h.control rfl (CTcpConnection.handleWrite_ok hconn).1 rfl rfl
        fun _ => rfl)
  | handled =>
      cases Except.ok.inj hrun
      exact h.of_same (.of_loop_eq h.control rfl rfl rfl rfl fun _ => rfl)
  | callFunctor result =>
      obtain ⟨cb, rest, hcons⟩ := List.exists_cons_of_ne_nil hpossible.1.2
      unfold Action.run at hrun
      rw [hcons] at hrun
      exact h.runFunctor hpossible.1 hcons hrun
  | send rMessage result => exact h.loopSend hrun
  | shutDown =>
      cases Except.ok.inj hrun
      refine h.of_same (.of_loop_eq h.control rfl ?_ rfl rfl fun _ => rfl)
      obtain ⟨eState, n, hshut⟩ := s.conn.shutDown_eq
      change s.conn.shutDown.stream = s.conn.stream
      rw [hshut]
      rfl
  | threadSend t rMessage =>
      cases Except.ok.inj hrun
      refine h.of_same (.of_loop_eq h.control rfl rfl rfl rfl (inHand_goto ?_ rfl))
      rw [hpossible.1]
      rfl
  | threadShutDown t =>
      cases Except.ok.inj hrun
      refine h.of_same (.of_loop_eq h.control rfl rfl rfl rfl (inHand_goto ?_ rfl))
      rw [hpossible.1]
      rfl
  | threadTest t =>
      cases Except.ok.inj hrun
      exact h.test hpossible
  | threadSetState t =>
      cases Except.ok.inj hrun
      refine h.of_same (.of_loop_eq h.control rfl rfl rfl rfl (inHand_goto ?_ rfl))
      rw [show s.calls t = _ from hpossible]
      rfl
  | threadPush t =>
      cases Except.ok.inj hrun
      exact h.threadPush hpossible.2
  | threadReturn t =>
      cases Except.ok.inj hrun
      refine h.of_same (.of_loop_eq h.control rfl rfl rfl rfl (inHand_goto ?_ rfl))
      rw [hpossible.1]
      rfl

end step

/-! ## Runs -/

/-- An executed message has been accepted from its sender. -/
theorem SendInv.ofSender_prefix {s : ConnectionLoop T} (h : s.SendInv) (sender : Option T) :
    ofSender sender s.executed <+: s.accepted sender := by
  cases sender with
  | none => rw [h.own_eq]
  | some t =>
      rw [← h.others_eq t, ofSender_append, List.append_assoc]
      exact List.prefix_append _ _

/-- No message is executed twice. -/
theorem SendInv.nodup {s : ConnectionLoop T} (h : s.SendInv) : s.executed.Nodup := by
  have haccepted : ∀ sender, (s.accepted sender).Nodup := fun sender =>
    List.Nodup.of_map Message.num (by
      rw [h.accepted_num]
      exact List.nodup_range)
  refine List.nodup_iff_count_le_one.mpr fun m => ?_
  have hcount : s.executed.count m = (ofSender m.sender s.executed).count m :=
    (List.count_filter (by simp)).symm
  rw [hcount]
  exact List.nodup_iff_count_le_one.mp
    ((haccepted m.sender).sublist (h.ofSender_prefix m.sender).sublist) m

/-- **`Send` loses, duplicates and reorders nothing.** In every run of a connection on its loop,
with any number of threads that call `Send` and `ShutDown`, and any results of `::write`:
* the bytes that the kernel has taken, then those in the output buffer, are those of the messages
  whose `__SendInLoop` has run, in this order;
* no message is among these twice, all are accepted messages, and those of any one thread are there
  in the order in which it sent them;
* a message whose functor has run is among them, and so is every accepted message of the loop
  thread; an accepted message of another thread that is not is still in the queue or in the thread's
  hands, behind those that are. -/
theorem sendOrder_run {s₀ s : ConnectionLoop T} {as : List (Action T)} (h₀ : s₀.Initial)
    (hrun : Run Step s₀ as s) :
    s.conn.taken ++ s.conn.outputBuffer = s.executed.flatMap Message.bytes ∧
    (s.executed.Nodup ∧ (∀ m ∈ s.executed, m ∈ s.accepted m.sender) ∧
      ∀ sender, ofSender sender s.executed <+: s.accepted sender ∧
        (s.accepted sender).map Message.num = List.range (s.accepted sender).length) ∧
    (∀ m, .sendInLoop m ∈ s.loop.ran → m ∈ s.executed) ∧
    ofSender none s.executed = s.accepted none ∧
    ∀ t, ofSender (some t) s.executed ++ (ofSender (some t) (messages s.loop.queue) ++
      inHand (s.calls t)) = s.accepted (some t) := by
  have h : s.SendInv := hrun.invariant SendInv.step (sendInv_of_initial h₀)
  refine ⟨h.stream_eq, ⟨h.nodup, fun m hm => ?_, fun sender =>
    ⟨h.ofSender_prefix sender, h.accepted_num sender⟩⟩, fun m hm => ?_, h.own_eq, fun t => ?_⟩
  · refine (h.ofSender_prefix m.sender).subset (List.mem_filter.mpr ⟨hm, ?_⟩)
    simp
  · have hmem : m ∈ messages s.loop.ran := List.mem_filterMap.mpr ⟨_, hm, rfl⟩
    rw [h.ran_eq] at hmem
    exact (List.mem_filter.mp hmem).1
  · rw [← List.append_assoc, ← ofSender_append]
    exact h.others_eq t

/-- The theorem on two messages: one queued by a thread, and one of the loop thread that overtakes
it and of which the kernel takes one byte. -/
theorem sendOrder_two_messages : ∃ s : ConnectionLoop Unit,
    Run Step start [.threadSend () [1, 2], .threadTest (), .threadPush (), .send [7, 8] 1,
      .loop .enterDoPendingFunctors, .loop .swap, .callFunctor 0] s ∧
    s.conn.taken = [7] ∧ s.conn.taken ++ s.conn.outputBuffer = s.executed.flatMap Message.bytes ∧
    s.executed.flatMap Message.bytes = [7, 8, 1, 2] := by
  obtain ⟨s, hs, htaken, hbytes⟩ : ∃ s : ConnectionLoop Unit,
      exec start [.threadSend () [1, 2], .threadTest (), .threadPush (), .send [7, 8] 1,
        .loop .enterDoPendingFunctors, .loop .swap, .callFunctor 0] = some s ∧
      s.conn.taken = [7] ∧ s.executed.flatMap Message.bytes = [7, 8, 1, 2] := ⟨_, rfl, rfl, rfl⟩
  exact ⟨s, run_of_exec hs, htaken, (sendOrder_run initial_start (run_of_exec hs)).1, hbytes⟩

end ConnectionLoop

end Neconet
