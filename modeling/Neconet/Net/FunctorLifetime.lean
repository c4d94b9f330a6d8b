import Neconet.Net.ConnectionLoop

/-!
# The lifetime of queued functors

`Send` and `ShutDown` of another thread queue a functor that is bound to the address of the
connection, not to a shared pointer. Does the connection exist when it runs?

* `Action.InTime`: such a functor is pushed before the batch of `ConnectDestroyed` is swapped out,
  and a message that is sent behind `ConnectDestroyed` leaves nothing to watch for.
* `LifetimeInv`: along such steps, who holds a shared pointer while which functors are queued.
* `functorLifetime_run`: along such steps, a functor finds its connection alive, and its channel
  registered when it updates it.
* `not_functorLifetime_late_push`: a functor that is pushed during the batch of `ConnectDestroyed`
  runs on a destroyed connection.
-/

set_option linter.unusedSectionVars false

namespace Neconet

open Transition

namespace ConnectionLoop

variable {T : Type} [DecidableEq T]

/-! ## Steps in time -/

/-- A functor bound to the address of the connection is pushed before the batch of
`ConnectDestroyed` is swapped out; a message that is sent behind `ConnectDestroyed` is empty, or
written at once. -/
def Action.InTime (s : ConnectionLoop T) : Action T → Prop
  | threadPush _ => .connectDestroyed ∉ s.loop.functors ∧ .connectDestroyed ∉ s.loop.ran
  | callFunctor result => .connectDestroyed ∈ s.loop.ran → offered s.loop.functors = 0 ∨
      s.conn.outputBuffer = [] ∧ offered s.loop.functors ≤ result.toNat
  | _ => True

instance (s : ConnectionLoop T) : ∀ a : Action T, Decidable (a.InTime s)
  | .threadPush _ => inferInstanceAs (Decidable (.connectDestroyed ∉ s.loop.functors ∧
      .connectDestroyed ∉ s.loop.ran))
  | .callFunctor result => inferInstanceAs (Decidable (.connectDestroyed ∈ s.loop.ran →
      offered s.loop.functors = 0 ∨
        s.conn.outputBuffer = [] ∧ offered s.loop.functors ≤ result.toNat))
  | .loop _ | .poll .. | .handleRead _ | .handleWrite _ | .handleClose | .handled | .send ..
  | .shutDown | .threadSend .. | .threadShutDown _ | .threadTest _ | .threadSetState _
  | .threadReturn _ => isTrue trivial

/-! ## The invariant -/

/-- Who holds a shared pointer to the connection while which functors are queued. -/
structure LifetimeInv (s : ConnectionLoop T) : Prop where
  /-- The flags of the loop agree with the position of the loop thread. -/
  control : s.loop.ControlInv
  /-- `ConnectDestroyed` is queued once, when the map gives its shared pointer away. -/
  count_eq : s.loop.line.count .connectDestroyed = if .map ∈ s.owners then 0 else 1
  /-- A queued `ConnectDestroyed` holds a shared pointer. -/
  functor_mem : .connectDestroyed ∈ s.loop.queue → .functor ∈ s.owners
  /-- From the swap of its batch on, no functor waits that needs the connection. -/
  not_isRaw : .connectDestroyed ∈ s.loop.functors ∨ .connectDestroyed ∈ s.loop.ran →
    ∀ f ∈ s.loop.pendingFunctors, ¬ f.IsRaw
  /-- While its batch has functors that need the connection, it has not been released. -/
  batch_held : .connectDestroyed ∈ s.loop.ran → ∀ f ∈ s.loop.functors, f.IsRaw →
    .functor ∈ s.owners
  /-- Before `ConnectDestroyed` has run, the channel is registered. -/
  registered : .connectDestroyed ∉ s.loop.ran → s.conn.channel.watch.IsRegistered
  /-- `ConnectDestroyed` has removed the channel. -/
  channel_eq : .connectDestroyed ∈ s.loop.ran → s.conn.channel = ⟨noneEvent, .removed⟩
  /-- `ConnectDestroyed` has ended `eConnected`. -/
  state_ne : .connectDestroyed ∈ s.loop.ran → s.conn.state ≠ .eConnected
  /-- Handlers of the channel run only before `ConnectDestroyed`. -/
  active_imp : s.active = true → s.loop.pc = .handling ∧ .connectDestroyed ∉ s.loop.ran

/-- The invariant holds when the connection has been established. -/
theorem lifetimeInv_of_initial {s : ConnectionLoop T} (h : s.Initial) : s.LifetimeInv := by
  have hqueue : Functor.connectDestroyed ∉ s.loop.queue := fun hmem => by
    cases h.queue_eq _ hmem
  have hran : Functor.connectDestroyed ∉ s.loop.ran := fun hmem => by
    cases h.ran_eq _ hmem
  have hbatch : Functor.connectDestroyed ∉ s.loop.functors := fun hmem =>
    hqueue (List.mem_append_left _ hmem)
  have hnot : ∀ p : Prop, Functor.connectDestroyed ∈ s.loop.ran → p := fun p hmem =>
    absurd hmem hran
  obtain ⟨as, hrun⟩ := h.loop_reachable
  refine ⟨hrun.invariant CEventLoop.ControlInv.step CEventLoop.controlInv_new, ?_,
    fun hmem => absurd hmem hqueue, fun hmem => ?_, fun hmem => hnot _ hmem, fun _ => ?_,
    fun hmem => hnot _ hmem, fun hmem => hnot _ hmem, fun hactive => ?_⟩
  · rw [if_pos (by rw [h.owners_eq]; exact Finset.mem_singleton_self _), List.count_eq_zero]
    rw [CEventLoop.line, List.append_assoc, List.mem_append, not_or]
    exact ⟨hran, hqueue⟩
  · exact absurd hmem (not_or.mpr ⟨hbatch, hran⟩)
  · rw [h.conn_eq]
    trivial
  · rw [h.active_eq] at hactive
    cases hactive

section step

variable {s s' : ConnectionLoop T}

/-- `ConnectDestroyed` is in one place at most. -/
theorem LifetimeInv.not_mem_queue (h : s.LifetimeInv) (hran : .connectDestroyed ∈ s.loop.ran) :
    .connectDestroyed ∉ s.loop.queue := by
  intro hqueue
  have hcount := h.count_eq
  have hran' := List.count_pos_iff.mpr hran
  have hqueue' := List.count_pos_iff.mpr hqueue
  rw [CEventLoop.line, List.append_assoc, List.count_append] at hcount
  change 0 < (s.loop.functors ++ s.loop.pendingFunctors).count _ at hqueue'
  split_ifs at hcount <;> omega

/-- While the map holds the connection, `ConnectDestroyed` has not been queued. -/
theorem LifetimeInv.not_mem_of_map (h : s.LifetimeInv) (hmap : .map ∈ s.owners) :
    .connectDestroyed ∉ s.loop.queue ∧ .connectDestroyed ∉ s.loop.ran := by
  have hcount := h.count_eq
  rw [if_pos hmap, List.count_eq_zero, CEventLoop.line, List.append_assoc, List.mem_append,
    not_or] at hcount
  exact ⟨hcount.2, hcount.1⟩

/-- **A functor that needs the connection finds it alive.** -/
theorem LifetimeInv.owners_ne (h : s.LifetimeInv) {f : Functor T} (hf : f ∈ s.loop.functors)
    (hraw : f.IsRaw) : s.owners ≠ ∅ := by
  by_cases hmap : .map ∈ s.owners
  · exact Finset.ne_empty_of_mem hmap
  · have hcount := h.count_eq
    rw [if_neg hmap] at hcount
    have hmem : .connectDestroyed ∈ s.loop.line := List.count_pos_iff.mp (by omega)
    rw [CEventLoop.line, List.append_assoc, List.mem_append] at hmem
    rcases hmem with hran | hqueue
    · exact Finset.ne_empty_of_mem (h.batch_held hran f hf hraw)
    · exact Finset.ne_empty_of_mem (h.functor_mem hqueue)

/-- **A step that leaves the loop alone** keeps the invariant, if it keeps the channel registered
and a removed channel as it is. -/
theorem LifetimeInv.of_loop_eq (h : s.LifetimeInv) (hloop : s'.loop = s.loop)
    (hmap : .map ∈ s'.owners ↔ .map ∈ s.owners) (hfunctor : .functor ∈ s.owners →
      .functor ∈ s'.owners)
    (hreg : .connectDestroyed ∉ s.loop.ran → s'.conn.channel.watch.IsRegistered)
    (hremoved : .connectDestroyed ∈ s.loop.ran → s'.conn.channel = s.conn.channel ∧
      s'.conn.state ≠ .eConnected)
    (hactive : s'.active = true → s.active = true) : s'.LifetimeInv := by
  constructor
  · rw [hloop]
    exact h.control
  · rw [hloop, h.count_eq]
    exact if_congr hmap.symm rfl rfl
  · rw [hloop]
    exact fun hmem => hfunctor (h.functor_mem hmem)
  · rw [hloop]
    exact h.not_isRaw
  · rw [hloop]
    exact fun hran f hf hraw => hfunctor (h.batch_held hran f hf hraw)
  · rw [hloop]
    exact hreg
  · rw [hloop]
    exact fun hran => (hremoved hran).1.trans (h.channel_eq hran)
  · rw [hloop]
    exact fun hran => (hremoved hran).2
  · rw [hloop]
    exact fun hact => h.active_imp (hactive hact)

/-- **A step that pushes functors** and touches no batch keeps the invariant, if the functors come
in time. -/
theorem LifetimeInv.of_push (h : s.LifetimeInv) (hctl : s'.loop.ControlInv)
    (hran : s'.loop.ran = s.loop.ran) (hbatch : s'.loop.functors = s.loop.functors)
    {fs : List (Functor T)} (hpending : s'.loop.pendingFunctors = s.loop.pendingFunctors ++ fs)
    (hfs : (∀ f ∈ fs, ¬ f.IsRaw) ∨
      .connectDestroyed ∉ s.loop.functors ∧ .connectDestroyed ∉ s.loop.ran)
    (hcount : s.loop.line.count .connectDestroyed + fs.count .connectDestroyed =
      if .map ∈ s'.owners then 0 else 1)
    (hfunctor : .functor ∈ s.owners ∧ .connectDestroyed ∉ s.loop.ran ∨
      .connectDestroyed ∈ fs → .functor ∈ s'.owners)
    (hheld : .functor ∈ s.owners → .functor ∈ s'.owners ∨ s.loop.functors = [])
    (hconn : s'.conn = s.conn ∨ .connectDestroyed ∉ s.loop.ran ∧
      s'.conn.channel.watch.IsRegistered)
    (hactive : s'.active = true → s'.loop.pc = .handling ∧ .connectDestroyed ∉ s.loop.ran) :
    s'.LifetimeInv := by
  have hqueue : s'.loop.queue = s.loop.queue ++ fs := by
    rw [CEventLoop.queue, hbatch, hpending, CEventLoop.queue, List.append_assoc]
  constructor
  · exact hctl
  · rw [← hcount, CEventLoop.line, hran, hbatch, hpending, ← List.append_assoc, List.count_append]
    rfl
  · rw [hqueue, List.mem_append]
    rintro (hold | hnew)
    · exact hfunctor (Or.inl ⟨h.functor_mem hold, fun hin => h.not_mem_queue hin hold⟩)
    · exact hfunctor (Or.inr hnew)
  · rw [hbatch, hran, hpending]
    intro hin f hf
    rcases List.mem_append.mp hf with hold | hnew
    · exact h.not_isRaw hin f hold
    · rcases hfs with hplain | hearly
      · exact hplain f hnew
      · exact absurd hin (not_or.mpr hearly)
  · rw [hbatch, hran]
    intro hin f hf hraw
    rcases hheld (h.batch_held hin f hf hraw) with hkept | hnil
    · exact hkept
    · rw [hnil] at hf
      cases hf
  · rw [hran]
    intro hnot
    rcases hconn with hsame | ⟨-, hreg⟩
    · rw [hsame]
      exact h.registered hnot
    · exact hreg
  · rw [hran]
    intro hin
    rcases hconn with hsame | ⟨hnot, -⟩
    · rw [hsame]
      exact h.channel_eq hin
    · exact absurd hin hnot
  · rw [hran]
    intro hin
    rcases hconn with hsame | ⟨hnot, -⟩
    · rw [hsame]
      exact h.state_ne hin
    · exact absurd hin hnot
  · rw [hran]
    exact hactive

/-- A step of the loop that is not about the connection does not end the handlers of its channel. -/
theorem Foreign.pc_eq {b : CEventLoop.Action (Functor T) T} (hforeign : s.Foreign b)
    (hen : b.Enabled s.loop) (hpc : s.loop.pc = .handling) (hactive : s.active = true) :
    (b.next s.loop).pc = .handling := by
  refine CEventLoop.pc_of_handling hen hpc ?_
  rintro rfl
  have hidle : s.active = false := hforeign
  rw [hactive] at hidle
  cases hidle

/-- Only the end of the batch of `ConnectDestroyed` releases its shared pointer. -/
theorem loopStep_owners {b : CEventLoop.Action (Functor T) T}
    (h : ¬ (b = .leaveDoPendingFunctors ∧ .connectDestroyed ∈ s.loop.ran)) :
    (s.loopStep b).owners = s.owners :=
  if_neg h

/-- The swap takes no functor that needs the connection behind `ConnectDestroyed`. -/
theorem LifetimeInv.swap (h : s.LifetimeInv)
    (hen : (CEventLoop.Action.swap : CEventLoop.Action (Functor T) T).Enabled s.loop) :
    (s.loopStep .swap).LifetimeInv := by
  have hpc : s.loop.pc = .aboutToSwap := hen
  have hst : CEventLoop.Step s.loop .swap _ := ⟨hen, rfl⟩
  have hnil : s.loop.functors = [] := h.control.functors_eq_nil (by simp [hpc]) (by simp [hpc])
  have hqueue := (h.control.queue_step hst rfl).2.trans (List.append_nil _)
  have howners : (s.loopStep .swap).owners = s.owners := loopStep_owners fun hleave => nomatch hleave.1
  constructor
  · exact h.control.step _ _ _ hst
  · rw [howners, ← h.count_eq]
    exact congrArg (List.count _) ((h.control.line_step hst).trans (List.append_nil _))
  · rw [howners]
    intro hmem
    exact h.functor_mem (hqueue ▸ hmem)
  · exact fun _ f hf => nomatch hf
  · intro hran f hf hraw
    exact absurd hraw (h.not_isRaw (Or.inr hran) f hf)
  · exact h.registered
  · exact h.channel_eq
  · exact h.state_ne
  · intro hactive
    have hhandling := (h.active_imp hactive).1
    rw [hpc] at hhandling
    cases hhandling

/-- **A step of the loop that is not about the connection.** At the end of the batch of
`ConnectDestroyed`, its shared pointer is released. -/
theorem LifetimeInv.loopStep (h : s.LifetimeInv) {b : CEventLoop.Action (Functor T) T}
    (hen : b.Enabled s.loop) (hforeign : s.Foreign b) : (s.loopStep b).LifetimeInv := by
  by_cases hswap : b = .swap
  · subst hswap
    exact h.swap hen
  have hst : CEventLoop.Step s.loop b _ := ⟨hen, rfl⟩
  obtain ⟨hbatch, hpending⟩ := CEventLoop.batch_step hst hforeign.isCall_eq hswap
  have hran := (h.control.queue_step hst hforeign.isCall_eq).1
  have hnone : b.pushed.toList.count .connectDestroyed = 0 :=
    List.count_eq_zero.mpr fun hmem => nomatch hforeign.eq_other _ hmem
  have hmap : .map ∈ (s.loopStep b).owners ↔ .map ∈ s.owners := by
    unfold ConnectionLoop.loopStep
    dsimp only
    split_ifs <;> simp
  refine h.of_push (h.control.step _ _ _ hst) hran hbatch hpending (Or.inl fun f hf hraw => ?_) ?_ ?_
    ?_ (Or.inl rfl) fun hactive => ?_
  · rw [hforeign.eq_other f hf] at hraw
    exact hraw
  · rw [hnone, Nat.add_zero, h.count_eq]
    exact if_congr hmap.symm rfl rfl
  · rintro (⟨hfunctor, hnot⟩ | hmem)
    · rw [loopStep_owners fun hleave => hnot hleave.2]
      exact hfunctor
    · exact nomatch hforeign.eq_other _ hmem
  · intro hfunctor
    by_cases hleave : b = .leaveDoPendingFunctors
    · subst hleave
      exact Or.inr hen.2
    · rw [loopStep_owners fun hcon => hleave hcon.1]
      exact Or.inl hfunctor
  · obtain ⟨hpc, hnot⟩ := h.active_imp hactive
    exact ⟨hforeign.pc_eq hen hpc hactive, hnot⟩

/-- After `ConnectDestroyed`, `__SendInLoop` writes itself where the output buffer is empty. -/
theorem LifetimeInv.nothing_left (h : s.LifetimeInv) (hran : .connectDestroyed ∈ s.loop.ran)
    {n : ℕ} {result : ℤ} (hok : n = 0 ∨ s.conn.outputBuffer = [] ∧ n ≤ result.toNat) :
    n = 0 ∨ s.conn.WritesDirectly ∧ n ≤ result.toNat := by
  have hnot : s.conn.channel.isWriting = false := by
    rw [h.channel_eq hran]
    exact isWriting_noneEvent
  exact hok.imp id fun hdirect =>
    ⟨CTcpConnection.writesDirectly_iff.mpr ⟨hnot, hdirect.1⟩, hdirect.2⟩

/-- **A functor in time does not fail**: the connection exists, and its channel is registered if the
functor updates it. -/
theorem LifetimeInv.runFunctor_isOk (h : s.LifetimeInv) {cb : Functor T} {rest : List (Functor T)}
    {result : ℤ} (hcons : s.loop.functors = cb :: rest) (hraw : cb.IsRaw)
    (hok : .connectDestroyed ∈ s.loop.ran → offered s.loop.functors = 0 ∨
      s.conn.outputBuffer = [] ∧ offered s.loop.functors ≤ result.toNat) :
    ∃ s', runFunctor { s with loop := CEventLoop.Action.callFunctor.next s.loop } result cb =
      .ok s' := by
  have halive : s.owners ≠ ∅ := h.owners_ne (by rw [hcons]; exact List.mem_cons_self) hraw
  cases cb with
  | sendInLoop m =>
      suffices hsend : ∃ conn, s.conn.sendInLoop m.bytes result = .ok conn by
        obtain ⟨conn, hconn⟩ := hsend
        simp [runFunctor, halive, hconn, pure, Except.pure]
      by_cases hran : .connectDestroyed ∈ s.loop.ran
      · rw [hcons] at hok
        exact ⟨_, CTcpConnection.sendInLoop_of_nothing_left (h.nothing_left hran (hok hran))⟩
      · exact CTcpConnection.sendInLoop_of_isRegistered (h.registered hran) m.bytes result
  | shutdownInLoop => simp [runFunctor, halive, pure, Except.pure]
  | connectDestroyed | other => exact hraw.elim

/-- A functor is called between the handlers. -/
theorem LifetimeInv.active_eq (h : s.LifetimeInv)
    (hen : (CEventLoop.Action.callFunctor).Enabled s.loop) : s.active = false := by
  by_contra hactive
  have hpc := (h.active_imp (Bool.not_eq_false _ ▸ hactive)).1
  rw [hen.1] at hpc
  cases hpc

/-- A functor other than `ConnectDestroyed` keeps the invariant, if it keeps the channel registered
and a removed channel as it is. -/
theorem LifetimeInv.of_callFunctor (h : s.LifetimeInv) {cb : Functor T} {rest : List (Functor T)}
    (hen : (CEventLoop.Action.callFunctor).Enabled s.loop) (hcons : s.loop.functors = cb :: rest)
    (hne : cb ≠ .connectDestroyed) (hloop : s'.loop = CEventLoop.Action.callFunctor.next s.loop)
    (howners : s'.owners = s.owners) (hactive : s'.active = s.active)
    (hreg : .connectDestroyed ∉ s.loop.ran → s'.conn.channel.watch.IsRegistered)
    (hremoved : .connectDestroyed ∈ s.loop.ran → s'.conn.channel = s.conn.channel ∧
      s'.conn.state = s.conn.state) : s'.LifetimeInv := by
  have hst : CEventLoop.Step s.loop .callFunctor s'.loop := ⟨hen, hloop⟩
  obtain ⟨hran, hqueue⟩ := CEventLoop.queue_callFunctor hcons
  have hrest := CEventLoop.functors_callFunctor hcons
  rw [← hloop] at hran hqueue hrest
  have hmem : .connectDestroyed ∈ s'.loop.ran ↔ .connectDestroyed ∈ s.loop.ran := by
    rw [hran, List.mem_append, List.mem_singleton, or_iff_left hne.symm]
  constructor
  · exact h.control.step _ _ _ hst
  · rw [howners, h.control.line_step hst, ← h.count_eq]
    exact congrArg _ (List.append_nil _)
  · rw [howners]
    intro hin
    exact h.functor_mem (hqueue ▸ List.mem_cons_of_mem _ hin)
  · rw [hmem, hrest, hloop]
    intro hin f hf
    exact h.not_isRaw (hin.imp (fun hr => hcons ▸ List.mem_cons_of_mem _ hr) id) f hf
  · rw [hmem, hrest, howners]
    intro hin f hf hraw
    exact h.batch_held hin f (hcons ▸ List.mem_cons_of_mem _ hf) hraw
  · rw [hmem]
    exact hreg
  · rw [hmem]
    exact fun hin => (hremoved hin).1.trans (h.channel_eq hin)
  · rw [hmem]
    intro hin
    rw [(hremoved hin).2]
    exact h.state_ne hin
  · rw [hactive, h.active_eq hen]
    intro hfalse
    cases hfalse

/-- `ConnectDestroyed` removes the channel. The shared pointer of its functor is held until the end
of the batch. -/
theorem LifetimeInv.connectDestroyed (h : s.LifetimeInv) {rest : List (Functor T)} {result : ℤ}
    (hen : (CEventLoop.Action.callFunctor).Enabled s.loop)
    (hcons : s.loop.functors = .connectDestroyed :: rest)
    (hrun : ConnectionLoop.runFunctor
      { s with loop := CEventLoop.Action.callFunctor.next s.loop } result .connectDestroyed =
        .ok s') : s'.LifetimeInv := by
  have hst : CEventLoop.Step s.loop .callFunctor _ := ⟨hen, rfl⟩
  obtain ⟨⟨conn, callback⟩, hdestroyed, hrun⟩ := bind_eq_ok_iff.mp hrun
  obtain ⟨conn', hremove, hrun⟩ := bind_eq_ok_iff.mp hrun
  cases Except.ok.inj hrun
  obtain ⟨rfl, -⟩ := CTcpConnection.connectDestroyed_ok hdestroyed hremove
  have hbatch : .connectDestroyed ∈ s.loop.functors := hcons ▸ List.mem_cons_self
  have hheld : .functor ∈ s.owners := h.functor_mem (List.mem_append_left _ hbatch)
  have hnow : .connectDestroyed ∈ (CEventLoop.Action.callFunctor.next s.loop).ran := by
    rw [(CEventLoop.queue_callFunctor hcons).1]
    exact List.mem_append_right _ (List.mem_singleton_self _)
  constructor
  · exact h.control.step _ _ _ hst
  · have hline := (h.control.line_step hst).trans (List.append_nil _)
    exact (congrArg (List.count _) hline).trans h.count_eq
  · exact fun _ => hheld
  · exact fun _ f hf => h.not_isRaw (Or.inl hbatch) f hf
  · exact fun _ _ _ _ => hheld
  · exact fun hnot => absurd hnow hnot
  · exact fun _ => rfl
  · intro _ hstate
    cases hstate
  · intro hactive
    rw [h.active_eq hen] at hactive
    cases hactive

/-- **The call of a functor** keeps the invariant. -/
theorem LifetimeInv.runFunctor (h : s.LifetimeInv) {cb : Functor T} {rest : List (Functor T)}
    {result : ℤ} (hen : (CEventLoop.Action.callFunctor).Enabled s.loop)
    (hcons : s.loop.functors = cb :: rest)
    (hok : .connectDestroyed ∈ s.loop.ran → offered s.loop.functors = 0 ∨
      s.conn.outputBuffer = [] ∧ offered s.loop.functors ≤ result.toNat)
    (hrun : ConnectionLoop.runFunctor
      { s with loop := CEventLoop.Action.callFunctor.next s.loop } result cb = .ok s') :
    s'.LifetimeInv := by
  cases cb with
  | sendInLoop m =>
      unfold ConnectionLoop.runFunctor at hrun
      split_ifs at hrun with howners
      obtain ⟨conn, hconn, hrun⟩ := bind_eq_ok_iff.mp hrun
      cases Except.ok.inj hrun
      refine h.of_callFunctor hen hcons (fun hcb => by cases hcb) rfl rfl rfl (fun hnot =>
        CTcpConnection.sendInLoop_isRegistered hconn (h.registered hnot)) fun hin => ?_
      rw [hcons] at hok
      have hnothing : m.bytes.length = 0 ∨ s.conn.WritesDirectly ∧
          m.bytes.length ≤ result.toNat := h.nothing_left hin (hok hin)
      have hwritten := hconn.symm.trans (CTcpConnection.sendInLoop_of_nothing_left hnothing)
      cases Except.ok.inj hwritten
      exact ⟨rfl, rfl⟩
  | shutdownInLoop =>
      unfold ConnectionLoop.runFunctor at hrun
      split_ifs at hrun with howners
      cases Except.ok.inj hrun
      refine h.of_callFunctor hen hcons (fun hcb => by cases hcb) rfl rfl rfl (fun hnot => ?_)
        fun _ => ?_
      · change s.conn.shutdownInLoop.channel.watch.IsRegistered
        rw [CTcpConnection.shutdownInLoop_eq]
        exact h.registered hnot
      · change s.conn.shutdownInLoop.channel = _ ∧ s.conn.shutdownInLoop.state = _
        rw [CTcpConnection.shutdownInLoop_eq]
        exact ⟨rfl, rfl⟩
  | connectDestroyed => exact h.connectDestroyed hen hcons hrun
  | other =>
      cases Except.ok.inj hrun
      exact h.of_callFunctor hen hcons (fun hcb => by cases hcb) rfl rfl rfl h.registered
        fun _ => ⟨rfl, rfl⟩

/-- The close callback queues `ConnectDestroyed` when the map gives its shared pointer away. -/
theorem LifetimeInv.removeConnection (h : s.LifetimeInv) (hin : s.InHandler)
    (hrun : s.removeConnection = .ok s') : s'.LifetimeInv := by
  obtain ⟨hmap, rfl⟩ := removeConnection_ok hrun
  obtain ⟨hpc, hwake, hactive⟩ := hin
  have hst : CEventLoop.Step s.loop (.queueInLoop .connectDestroyed) _ :=
    ⟨⟨Or.inl hpc, hwake⟩, rfl⟩
  obtain ⟨hqueue, hran⟩ := h.not_mem_of_map hmap
  have hbatch : .connectDestroyed ∉ s.loop.functors := fun hmem =>
    hqueue (List.mem_append_left _ hmem)
  refine h.of_push (h.control.step _ _ _ hst) rfl rfl rfl (Or.inr ⟨hbatch, hran⟩) ?_
    (fun _ => Finset.mem_insert_self _ _) (fun _ => Or.inl (Finset.mem_insert_self _ _))
    (Or.inl rfl) fun _ => ⟨hpc, hran⟩
  rw [h.count_eq, if_pos hmap, if_neg]
  · rfl
  · simp

/-- **The read side** keeps the channel registered, and may call the close callback. -/
theorem LifetimeInv.readSide (h : s.LifetimeInv) {a : Action T}
    (ha : (∃ result, a = .handleRead result) ∨ a = .handleClose) (hin : s.InHandler)
    (hrun : a.run s = .ok s') : s'.LifetimeInv := by
  have hnot := (h.active_imp hin.2.2).2
  obtain ⟨conn, hconn, hs'⟩ := readSide_of_run ha hrun
  have hinv : LifetimeInv { s with conn := conn } :=
    h.of_loop_eq rfl Iff.rfl id (fun _ => hconn.isRegistered (h.registered hnot))
      (fun hran => absurd hran hnot) id
  rcases hs' with rfl | hclose
  · exact hinv
  · exact hinv.removeConnection hin hclose

/-- `Send` in the loop thread finds the channel registered. -/
theorem LifetimeInv.loopSend (h : s.LifetimeInv) {rMessage : List Byte} {result : ℤ}
    (hrun : s.loopSend rMessage result = .ok s') : s'.LifetimeInv := by
  unfold ConnectionLoop.loopSend at hrun
  split_ifs at hrun with hstate
  · obtain ⟨conn, hconn, hrun⟩ := bind_eq_ok_iff.mp hrun
    rw [CTcpConnection.send_of_eConnected hstate] at hconn
    cases Except.ok.inj hrun
    exact h.of_loop_eq rfl Iff.rfl id (fun hnot =>
      CTcpConnection.sendInLoop_isRegistered hconn (h.registered hnot))
      (fun hin => absurd hstate (h.state_ne hin)) id
  · cases Except.ok.inj hrun
    exact h

/-- **The push of `Send` or `ShutDown`**, in time. -/
theorem LifetimeInv.threadPush (h : s.LifetimeInv) {t : T} (hthread : s.loop.threads t = .idle)
    (htime : .connectDestroyed ∉ s.loop.functors ∧ .connectDestroyed ∉ s.loop.ran) :
    (s.threadPush t).LifetimeInv := by
  unfold ConnectionLoop.threadPush
  cases hfunctor : (s.calls t).functor? with
  | none => exact h
  | some cb =>
      have hst : CEventLoop.Step s.loop (.threadQueueInLoop t cb) _ := ⟨hthread, rfl⟩
      have hne : cb ≠ .connectDestroyed := by
        rintro rfl
        cases hcall : s.calls t <;> rw [hcall] at hfunctor <;> cases hfunctor
      refine h.of_push (h.control.step _ _ _ hst) rfl rfl rfl (Or.inr htime) ?_ ?_ Or.inl
        (Or.inl rfl) h.active_imp
      · have hzero : [cb].count .connectDestroyed = 0 :=
          List.count_eq_zero.mpr fun hmem => hne (List.mem_singleton.mp hmem).symm
        rw [hzero, Nat.add_zero]
        exact h.count_eq
      · rintro (⟨hheld, -⟩ | hmem)
        · exact hheld
        · exact absurd (List.mem_singleton.mp hmem).symm hne

end step

/-- **Every step in time keeps the invariant.** -/
theorem LifetimeInv.step (s : ConnectionLoop T) (a : Action T) (s' : ConnectionLoop T)
    (h : s.LifetimeInv) (hok : a.InTime s) (hst : Step s a s') : s'.LifetimeInv := by
  obtain ⟨⟨-, hpossible⟩, rfl⟩ := hst
  -- a step that leaves the loop and the connection alone
  have hsame : ∀ s' : ConnectionLoop T, s'.loop = s.loop → s'.conn = s.conn →
      (.map ∈ s'.owners ↔ .map ∈ s.owners) → (.functor ∈ s.owners → .functor ∈ s'.owners) →
      (s'.active = true → s.active = true) → s'.LifetimeInv := by
    intro s' hloop hconn hmap hfunctor hactive
    refine h.of_loop_eq hloop hmap hfunctor ?_ (fun hin => ⟨?_, ?_⟩) hactive
    · rw [hconn]
      exact h.registered
    · rw [hconn]
    · rw [hconn]
      exact h.state_ne hin
  refine next_induction h (fun e _ => hsame _ rfl rfl Iff.rfl id id) fun s' hrun => ?_
  cases a with
  | loop b =>
      cases Except.ok.inj hrun
      exact h.loopStep hpossible.1 hpossible.2
  | poll readable reported =>
      cases Except.ok.inj hrun
      have hst : CEventLoop.Step s.loop (.poll readable) _ := ⟨hpossible.1, rfl⟩
      refine h.of_push (h.control.step _ _ _ hst) rfl rfl (List.append_nil _).symm
        (Or.inl nofun) h.count_eq (fun hor => (hor.resolve_right nofun).1) Or.inl (Or.inl rfl)
        fun hactive => ⟨rfl, fun hin => ?_⟩
      have hwatched := hpossible.2 hactive
      rw [h.channel_eq hin] at hwatched
      cases hwatched
  | handleRead result => exact h.readSide (Or.inl ⟨result, rfl⟩) hpossible hrun
  | handleClose => exact h.readSide (Or.inr rfl) hpossible hrun
  | handleWrite n =>
      obtain ⟨conn, hconn, hrun⟩ := bind_eq_ok_iff.mp hrun
      cases Except.ok.inj hrun
      have hnot := (h.active_imp hpossible.1.2.2).2
      refine h.of_loop_eq rfl Iff.rfl id (fun _ => ?_) (fun hin => absurd hin hnot) id
      obtain ⟨-, -, -, hsame | hdisabled⟩ := CTcpConnection.handleWrite_ok hconn
      · exact hsame ▸ h.registered hnot
      · exact WatchedChannel.changeInterest_isRegistered hdisabled (h.registered hnot)
  | handled =>
      cases Except.ok.inj hrun
      exact hsame _ rfl rfl Iff.rfl id nofun
  | callFunctor result =>
      obtain ⟨cb, rest, hcons⟩ := List.exists_cons_of_ne_nil hpossible.1.2
      unfold Action.run at hrun
      rw [hcons] at hrun
      exact h.runFunctor hpossible.1 hcons hok hrun
  | send rMessage result => exact h.loopSend hrun
  | shutDown =>
      cases Except.ok.inj hrun
      have hshut : s.conn.shutDown.channel = s.conn.channel := by
        obtain ⟨eState, n, heq⟩ := s.conn.shutDown_eq
        rw [heq]
      refine h.of_loop_eq rfl Iff.rfl id (fun hnot => ?_) (fun hin => ⟨hshut, ?_⟩) id
      · rw [hshut]
        exact h.registered hnot
      · have hne := h.state_ne hin
        change s.conn.shutDown.state ≠ .eConnected
        rw [CTcpConnection.shutDown_of_ne hne]
        exact hne
  | threadSend t rMessage =>
      cases Except.ok.inj hrun
      exact hsame _ rfl rfl (by simp) (by simp) id
  | threadShutDown t =>
      cases Except.ok.inj hrun
      exact hsame _ rfl rfl (by simp) (by simp) id
  | threadTest t =>
      cases Except.ok.inj hrun
      rcases test_cases hpossible with ⟨rMessage, -, heq⟩ | ⟨pc, -, heq⟩
      · rw [heq]
        exact hsame _ rfl rfl Iff.rfl id id
      · rw [heq]
        exact hsame _ rfl rfl Iff.rfl id id
  | threadSetState t =>
      cases Except.ok.inj hrun
      exact h.of_loop_eq rfl Iff.rfl id h.registered (fun _ => ⟨rfl, fun hstate => by cases hstate⟩) id
  | threadPush t =>
      cases Except.ok.inj hrun
      exact h.threadPush hpossible.2 hok
  | threadReturn t =>
      cases Except.ok.inj hrun
      exact hsame _ rfl rfl (by simp) (by simp) id

/-- A functor that returns has changed neither the loop nor the state of the program. -/
theorem runFunctor_ok {s s' : ConnectionLoop T} {cb : Functor T} {result : ℤ}
    (h : s.runFunctor result cb = .ok s') : s'.loop = s.loop ∧ s'.fault = s.fault := by
  cases cb with
  | sendInLoop m =>
      unfold runFunctor at h
      split_ifs at h
      obtain ⟨conn, -, h⟩ := bind_eq_ok_iff.mp h
      cases Except.ok.inj h
      exact ⟨rfl, rfl⟩
  | shutdownInLoop =>
      unfold runFunctor at h
      split_ifs at h
      cases Except.ok.inj h
      exact ⟨rfl, rfl⟩
  | connectDestroyed =>
      obtain ⟨⟨conn, callback⟩, -, h⟩ := bind_eq_ok_iff.mp h
      obtain ⟨conn', -, h⟩ := bind_eq_ok_iff.mp h
      cases Except.ok.inj h
      exact ⟨rfl, rfl⟩
  | other =>
      cases Except.ok.inj h
      exact ⟨rfl, rfl⟩

/-- **A functor queued by a connection does not outlive what it works on**, if all steps of the run
are in time: every functor bound to the address of the connection is pushed before the batch of
`ConnectDestroyed` is swapped out, and no message behind `ConnectDestroyed` leaves something to
watch for. Then whenever such a functor runs, the connection has not been destroyed, no assertion
fails, and the channel is registered if the functor changes it. -/
theorem functorLifetime_run {s₀ s s' : ConnectionLoop T} {as : List (Action T)} {result : ℤ}
    {cb : Functor T} {rest : List (Functor T)} (h₀ : s₀.Initial) (hrun : Run Step s₀ as s)
    (hst : Step s (.callFunctor result) s')
    (hok : Along Step (fun s a => a.InTime s) s₀ (as ++ [.callFunctor result]))
    (hcons : s.loop.functors = cb :: rest) (hraw : cb.IsRaw) :
    s.owners ≠ ∅ ∧ s'.fault = none ∧
      (s.conn.channel.watch.IsRegistered ∨ s'.conn.channel = s.conn.channel) := by
  have h : s.LifetimeInv := hrun.invariant_along LifetimeInv.step hok.left
    (lifetimeInv_of_initial h₀)
  have htime : (Action.callFunctor result).InTime s := hok.last hrun
  have hmem : cb ∈ s.loop.functors := hcons ▸ List.mem_cons_self
  obtain ⟨s'', hs''⟩ := h.runFunctor_isOk hcons hraw htime
  have hok' : (Action.callFunctor result).run s = .ok s'' := by
    unfold Action.run
    rw [hcons]
    exact hs''
  have h' : s'.LifetimeInv := LifetimeInv.step s _ s' h htime hst
  obtain ⟨⟨hfault, -⟩, rfl⟩ := hst
  rw [next_of_ok hok'] at h' ⊢
  obtain ⟨hloop, hsame⟩ := runFunctor_ok hs''
  refine ⟨h.owners_ne hmem hraw, hsame.trans hfault, ?_⟩
  by_cases hran : .connectDestroyed ∈ s.loop.ran
  · right
    rw [h.channel_eq hran, h'.channel_eq]
    rw [hloop, (CEventLoop.queue_callFunctor hcons).1]
    exact List.mem_append_left _ hran
  · exact Or.inl (h.registered hran)

/-- The theorem on a thread that sends while the connection is closed: its functor is pushed behind
`ConnectDestroyed`, into the same batch. -/
theorem functorLifetime_same_batch : ∃ s s' : ConnectionLoop Unit,
    Run Step start [.threadSend () [1, 2], .threadTest (), .loop .enterDoPendingFunctors,
      .loop .swap, .loop .leaveDoPendingFunctors, .loop .testQuit, .poll false true,
      .handleRead (.bytes []), .handled, .threadPush (), .loop (.threadWakeup () true),
      .threadReturn (), .loop .enterDoPendingFunctors, .loop .swap, .callFunctor 0,
      .loop .returnFunctor] s ∧
    Step s (.callFunctor 2) s' ∧ s.conn.state = .eDisconnected ∧ s.owners ≠ ∅ ∧
    s'.fault = none := by
  set as : List (Action Unit) := [.threadSend () [1, 2], .threadTest (),
    .loop .enterDoPendingFunctors, .loop .swap, .loop .leaveDoPendingFunctors, .loop .testQuit,
    .poll false true, .handleRead (.bytes []), .handled, .threadPush (),
    .loop (.threadWakeup () true), .threadReturn (), .loop .enterDoPendingFunctors, .loop .swap,
    .callFunctor 0, .loop .returnFunctor] with has
  obtain ⟨s, hs, hen, hstate, hcons⟩ : ∃ s : ConnectionLoop Unit, exec start as = some s ∧
      Action.Enabled s (.callFunctor 2) ∧ s.conn.state = .eDisconnected ∧
      s.loop.functors = [.sendInLoop ⟨some (), 0, [1, 2]⟩] := ⟨_, rfl, by decide, rfl, rfl⟩
  have hok : Along Step (fun s a => Action.InTime s a) start (as ++ [.callFunctor 2]) :=
    along_of_allNext (by decide)
  have hst : Step s (.callFunctor 2) _ := ⟨hen, rfl⟩
  obtain ⟨halive, hfault, -⟩ :=
    functorLifetime_run initial_start (run_of_exec hs) hst hok hcons trivial
  exact ⟨s, _, run_of_exec hs, hst, hstate, halive, hfault⟩

/-- **A functor that is pushed during the batch of `ConnectDestroyed`**: `Send` has tested the state
before; at the end of the batch the last shared pointer is released; the functor runs in the next
batch, on a destroyed connection. -/
theorem not_functorLifetime_late_push : ∃ s s' : ConnectionLoop Unit,
    Run Step start [.threadSend () [1, 2], .threadTest (), .loop .enterDoPendingFunctors,
      .loop .swap, .loop .leaveDoPendingFunctors, .loop .testQuit, .poll false true,
      .handleRead (.bytes []), .handled, .loop .enterDoPendingFunctors, .loop .swap,
      .callFunctor 0, .loop .returnFunctor, .threadPush (), .loop (.threadWakeup () true),
      .threadReturn (), .loop .leaveDoPendingFunctors, .loop .testQuit, .poll true false,
      .loop .handleRead, .loop .enterDoPendingFunctors, .loop .swap] s ∧
    s.loop.functors = [.sendInLoop ⟨some (), 0, [1, 2]⟩] ∧ s.owners = ∅ ∧
    Step s (.callFunctor 2) s' ∧ s'.fault = some .useAfterFree := by
  obtain ⟨s, hs, hcons, hdead, hen, hfault⟩ : ∃ s : ConnectionLoop Unit, exec start
      [.threadSend () [1, 2], .threadTest (), .loop .enterDoPendingFunctors,
      .loop .swap, .loop .leaveDoPendingFunctors, .loop .testQuit, .poll false true,
      .handleRead (.bytes []), .handled, .loop .enterDoPendingFunctors, .loop .swap,
      .callFunctor 0, .loop .returnFunctor, .threadPush (), .loop (.threadWakeup () true),
      .threadReturn (), .loop .leaveDoPendingFunctors, .loop .testQuit, .poll true false,
      .loop .handleRead, .loop .enterDoPendingFunctors, .loop .swap] = some s ∧
      s.loop.functors = [.sendInLoop ⟨some (), 0, [1, 2]⟩] ∧ s.owners = ∅ ∧
      Action.Enabled s (.callFunctor 2) ∧
      (Action.next s (.callFunctor 2)).fault = some .useAfterFree :=
    ⟨_, rfl, rfl, rfl, by decide, rfl⟩
  exact ⟨s, _, run_of_exec hs, hcons, hdead, ⟨hen, rfl⟩, hfault⟩

end ConnectionLoop

end Neconet
