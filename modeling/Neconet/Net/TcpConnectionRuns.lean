import Neconet.Lib.Transition
import Neconet.Net.TcpConnection

/-!
# Writing on an established connection

Runs of the write side of one connection: `__SendInLoop`, `__HandleWrite` and `ShutDown`, with every
result that `::write` can have.

* `unsentWatched_iff`: after every step, the output buffer is nonempty exactly if writable events
  are watched, if and only if every `__SendInLoop` writes its whole message at once. When something
  is left, `__SendInLoop` calls `SetEnableReading` where writable events would have to be enabled.
-/

namespace Neconet

open Transition

namespace CTcpConnection

/-- A connection after `ConnectEstablished`. -/
def established : CTcpConnection :=
  { new with state := .eConnected, channel := ⟨readEvent, .watched⟩ }

/-- What the write side of a connection is asked to do. -/
inductive WriteAction
  /-- `__SendInLoop`, where `::write` returns `result`. -/
  | sendInLoop (rMessage : List Byte) (result : ℤ)
  /-- `__HandleWrite`, where `::write` returns `n`. -/
  | handleWrite (n : ℤ)
  /-- `ShutDown` in the loop thread. -/
  | shutDown
  /-- `ShutDown` in another thread, up to the push of its functor. -/
  | threadShutDown
  /-- The functor of another thread's `ShutDown`. -/
  | shutdownInLoop
  deriving DecidableEq, Repr

/-- The connection after the action. -/
def WriteAction.run (c : CTcpConnection) : WriteAction → Except Fault CTcpConnection
  | sendInLoop rMessage result => c.sendInLoop rMessage result
  | handleWrite n => c.handleWrite n
  | shutDown => .ok c.shutDown
  | threadShutDown => .ok (if c.state = .eConnected then c.setState .eDisconnecting else c)
  | shutdownInLoop => .ok c.shutdownInLoop

/-- One action, as a relation between connections. -/
def WriteAction.Step (c : CTcpConnection) (a : WriteAction) (c' : CTcpConnection) : Prop :=
  a.run c = .ok c'

/-- Actions are deterministic. -/
theorem WriteAction.step_unique (c : CTcpConnection) (a : WriteAction) (c' c'' : CTcpConnection)
    (h : Step c a c') (h' : Step c a c'') : c' = c'' := by
  rw [Step, h, Except.ok.injEq] at h'
  exact h'

/-- `::write` returns an error, or a number of bytes it was offered. -/
def WriteAction.Legal (c : CTcpConnection) : WriteAction → Prop
  | sendInLoop rMessage result => -1 ≤ result ∧ result ≤ rMessage.length
  | handleWrite n => -1 ≤ n ∧ n ≤ c.outputBuffer.length
  | _ => True

/-- `__SendInLoop` writes its whole message at once. -/
def WriteAction.TakesAll (_ : CTcpConnection) : WriteAction → Prop
  | sendInLoop rMessage result => rMessage.length ≤ result.toNat
  | _ => True

/-- **Unsent data is watched**: the output buffer is nonempty exactly if the channel has write
interest. -/
def UnsentWatched (c : CTcpConnection) : Prop :=
  c.outputBuffer ≠ [] ↔ c.channel.isWriting = true

/-- Nothing is unsent, and the channel is as `ConnectEstablished` has left it. -/
structure AllSent (c : CTcpConnection) : Prop where
  /-- The output buffer is empty. -/
  outputBuffer_eq : c.outputBuffer = []
  /-- The channel is watched for reading. -/
  channel_eq : c.channel = ⟨readEvent, .watched⟩

namespace AllSent

variable {c : CTcpConnection}

/-- The channel is not watched for writing. -/
theorem isWriting_eq (h : c.AllSent) : c.channel.isWriting = false := by
  rw [h.channel_eq]
  decide

/-- If nothing is unsent, nothing has to be watched. -/
theorem unsentWatched (h : c.AllSent) : c.UnsentWatched := by
  simp [UnsentWatched, h.outputBuffer_eq, h.isWriting_eq]

/-- `__SendInLoop` offers its message to the kernel. -/
theorem writesDirectly (h : c.AllSent) : c.WritesDirectly :=
  writesDirectly_iff.mpr ⟨h.isWriting_eq, h.outputBuffer_eq⟩

/-- How much of it the kernel takes. -/
theorem wrote_eq (h : c.AllSent) (result : ℤ) : c.wrote result = result.toNat :=
  if_pos h.writesDirectly

/-- `__ShutdownInLoop` sends nothing. -/
theorem shutdownInLoop (h : c.AllSent) : c.shutdownInLoop.AllSent := by
  rw [shutdownInLoop_eq]
  exact ⟨h.outputBuffer_eq, h.channel_eq⟩

/-- A change of state sends nothing. -/
theorem setState (h : c.AllSent) (eState : EState) : AllSent (c.setState eState) :=
  ⟨h.outputBuffer_eq, h.channel_eq⟩

end AllSent

/-- An action whose message is taken at once leaves nothing unsent. -/
theorem AllSent.step_of_takesAll (c : CTcpConnection) (a : WriteAction) (h : c.AllSent)
    (_ : a.Legal c) (hok : a.TakesAll c) :
    ∃ c', WriteAction.Step c a c' ∧ c'.AllSent ∧ c'.UnsentWatched := by
  suffices hstep : ∃ c', WriteAction.Step c a c' ∧ c'.AllSent by
    obtain ⟨c', hst, hc'⟩ := hstep
    exact ⟨c', hst, hc', hc'.unsentWatched⟩
  cases a with
  | sendInLoop rMessage result =>
      exact ⟨_, sendInLoop_of_length_le h.writesDirectly hok, h.outputBuffer_eq, h.channel_eq⟩
  | handleWrite n => exact ⟨c, handleWrite_of_not_writing h.isWriting_eq n, h⟩
  | shutDown =>
      refine ⟨c.shutDown, rfl, ?_⟩
      by_cases hstate : c.state = .eConnected
      · rw [CTcpConnection.shutDown, ConnectionOver.shutDown_of_eConnected hstate]
        exact (h.setState _).shutdownInLoop
      · rw [shutDown_of_ne hstate]
        exact h
  | threadShutDown =>
      refine ⟨_, rfl, ?_⟩
      split_ifs
      · exact h.setState _
      · exact h
  | shutdownInLoop => exact ⟨_, rfl, h.shutdownInLoop⟩

/-- A message that is not taken at once stays in the output buffer, and nothing watches. -/
theorem AllSent.not_unsentWatched (c : CTcpConnection) (a : WriteAction) (c' : CTcpConnection)
    (h : c.AllSent) (_ : a.Legal c) (hnot : ¬ a.TakesAll c) (hst : WriteAction.Step c a c') :
    ¬ c'.UnsentWatched := by
  cases a with
  | sendInLoop rMessage result =>
      have hleft : result.toNat < rMessage.length := not_le.mp hnot
      obtain ⟨channel, rfl, hchannel⟩ := sendInLoop_ok hst
      have hwriting : channel.isWriting = false := by
        rcases hchannel with rfl | hchannel
        · exact h.isWriting_eq
        · rw [h.channel_eq] at hchannel
          rw [← Except.ok.inj hchannel]
          decide
      have hbuffer : c.outputBuffer ++ rMessage.drop (c.wrote result) ≠ [] := by
        rw [h.outputBuffer_eq, h.wrote_eq, List.nil_append, ne_eq, List.drop_eq_nil_iff]
        exact not_le.mpr hleft
      intro hwatched
      have hnow := hwatched.mp hbuffer
      rw [hwriting] at hnow
      cases hnow
  | handleWrite | shutDown | threadShutDown | shutdownInLoop => exact absurd trivial hnot

/-- **Unsent data is watched exactly along the runs in which every message is taken at once.** For
an established connection and any actions on its write side, with any results of `::write`. -/
theorem unsentWatched_iff (as : List WriteAction)
    (hlegal : Along WriteAction.Step WriteAction.Legal established as) :
    Along WriteAction.Step WriteAction.TakesAll established as ↔
      ∀ done a rest, as = done ++ a :: rest → ∃ c c',
        Run WriteAction.Step established done c ∧ WriteAction.Step c a c' ∧ c'.UnsentWatched :=
  along_iff_good WriteAction.step_unique AllSent.step_of_takesAll AllSent.not_unsentWatched hlegal
    ⟨rfl, rfl⟩

/-- The theorem on a message that is taken at once. -/
theorem unsentWatched_whole : ∃ c c', Run WriteAction.Step established [] c ∧
    WriteAction.Step c (.sendInLoop [7, 8] 2) c' ∧ c'.UnsentWatched := by
  have hlegal : Along WriteAction.Step WriteAction.Legal established [.sendInLoop [7, 8] 2] :=
    along_cons_iff.mpr ⟨⟨by decide, by decide⟩, fun _ _ => along_nil⟩
  have hok : Along WriteAction.Step WriteAction.TakesAll established [.sendInLoop [7, 8] 2] :=
    along_cons_iff.mpr ⟨le_refl 2, fun _ _ => along_nil⟩
  exact (unsentWatched_iff _ hlegal).mp hok [] _ [] rfl

/-- **A message of two bytes of which the kernel takes one**: the other byte is in the output buffer
and the channel is not watched for writing. -/
theorem not_unsentWatched_partial : ∃ c,
    Along WriteAction.Step WriteAction.Legal established [.sendInLoop [7, 8] 1] ∧
    Run WriteAction.Step established [.sendInLoop [7, 8] 1] c ∧
    c.outputBuffer = [8] ∧ c.channel.events = readEvent ∧ ¬ c.UnsentWatched := by
  have hlegal : Along WriteAction.Step WriteAction.Legal established [.sendInLoop [7, 8] 1] :=
    along_cons_iff.mpr ⟨⟨by decide, by decide⟩, fun _ _ => along_nil⟩
  refine ⟨_, hlegal, Run.single rfl, rfl, rfl, fun hwatched => ?_⟩
  exact absurd (hwatched.mp (by decide)) (by decide)

end CTcpConnection

end Neconet
