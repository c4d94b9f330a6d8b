import Neconet.Base.Fault
import Neconet.Lib.Printf
import Neconet.Lib.Transition

/-!
# `CurrentThread`

The cached thread id of `base/CurrentThread.cpp`, over the threads of all processes that come from
one by `pthread_create` and `fork`. The variables are `__thread`: a new thread has its own, and the
only thread of a new process has a copy of those of the thread that called `fork`. `AfterFork` of
`base/CThreadData.cpp` fills the cache of that copy again, if a `CThreadNameInitializer` has been
made in the process or in one it comes from.

Of the kernel it is assumed that a new thread has a positive id of 31 bits that is neither the id of
a thread nor that of a process.

* `CurrentThread`, `tid`, `afterFork`: the variables of a thread, and the functions on them.
* `Processes`, `Action`, `Step`: the states, the steps, and the step relation.
* `Every.step`: what holds of every thread after a step.
* `tid_run`: exactly when `Tid()` is right in every thread.
* `stale_run`: until when it stays wrong.
* `tidString_run`: the text of the id.
-/

namespace Neconet

open Transition Printf

/-! ## The variables of a thread -/

/-- The `__thread` variables.
Source: `base/CurrentThread.cpp` -/
structure CurrentThread where
  /-- `t_nCachedTid`. -/
  cachedTid : ℤ
  /-- `t_gcTidString`. -/
  tidString : List Char
  /-- `t_nTidStringLength`. -/
  tidStringLength : ℕ
  /-- `t_pcThreadName`. -/
  threadName : List Char
  deriving DecidableEq, Repr

namespace CurrentThread

/-- Their initial values. -/
def new : CurrentThread where
  cachedTid := 0
  tidString := []
  tidStringLength := 6
  threadName := "unknown".toList

/-- `CacheTid` in the thread `self`.
Source: `base/CurrentThread.cpp`, `CurrentThread::CacheTid` -/
def cacheTid (l : CurrentThread) (self : ℤ) : CurrentThread :=
  if l.cachedTid = 0 then
    { l with
      cachedTid := self
      tidString := snprintf 32 (blankPadded 5 self)
      tidStringLength := (blankPadded 5 self).length }
  else l

/-- `Tid`, which returns `cachedTid` of the result.
Source: `base/CurrentThread.h`, `CurrentThread::Tid` -/
def tid (l : CurrentThread) (self : ℤ) : CurrentThread :=
  if l.cachedTid = 0 then l.cacheTid self else l

/-- Source: `base/CThreadData.cpp`, `AfterFork` -/
def afterFork (l : CurrentThread) (self : ℤ) : CurrentThread :=
  tid { l with cachedTid := 0, threadName := "main".toList } self

/-- The constructor, without `pthread_atfork`.
Source: `base/CThreadData.cpp`, `CThreadNameInitializer::CThreadNameInitializer` -/
def nameInitializer (l : CurrentThread) (self : ℤ) : CurrentThread :=
  tid { l with threadName := "main".toList } self

/-- The part of `RunInThread` in front of the thread function.
Source: `base/CThreadData.cpp`, `CThreadData::RunInThread` -/
def runInThread (l : CurrentThread) (self : ℤ) (sName : List Char) : CurrentThread :=
  { l.tid self with threadName := if sName = [] then "necoThread".toList else sName }

/-- The part behind it.
Source: `base/CThreadData.cpp`, `CThreadData::RunInThread` -/
def finished (l : CurrentThread) : CurrentThread := { l with threadName := "finished".toList }

/-- A filled cache is kept. -/
theorem tid_of_ne_zero {l : CurrentThread} (h : l.cachedTid ≠ 0) (self : ℤ) : l.tid self = l := by
  rw [tid, if_neg h]

/-- An empty one is filled. -/
theorem cachedTid_tid_of_eq_zero {l : CurrentThread} (h : l.cachedTid = 0) (self : ℤ) :
    (l.tid self).cachedTid = self := by
  rw [tid, if_pos h, cacheTid, if_pos h]

/-- `AfterFork` fills the cache. -/
theorem cachedTid_afterFork (l : CurrentThread) (self : ℤ) : (l.afterFork self).cachedTid = self :=
  cachedTid_tid_of_eq_zero rfl self

/-- A second registered `AfterFork` changes nothing. -/
theorem afterFork_afterFork (l : CurrentThread) {self : ℤ} :
    (l.afterFork self).afterFork self = l.afterFork self := by
  simp [afterFork, tid, cacheTid]

end CurrentThread

/-! ## The threads of all processes -/

/-- A thread. -/
structure Task where
  /-- `getpid()`. -/
  pid : ℤ
  /-- Its variables. -/
  locals : CurrentThread
  deriving DecidableEq, Repr

/-- The threads by their ids, and the processes that have registered `AfterFork`. -/
structure Processes where
  /-- The threads. -/
  threads : ℤ → Option Task
  /-- `AfterFork` is registered with `pthread_atfork`. -/
  handlers : ℤ → Bool

namespace Processes

/-- Nothing has the id. -/
def Fresh (s : Processes) (t : ℤ) : Prop :=
  (0 < t ∧ t < 2 ^ 31) ∧ ∀ u k, s.threads u = some k → u ≠ t ∧ k.pid ≠ t

/-- The entry of an id changes: a thread begins, goes on or ends. -/
def put (s : Processes) (t : ℤ) (k : Option Task) : Processes :=
  { s with threads := Function.update s.threads t k }

/-- A program that has just been started. -/
def new (pid : ℤ) : Processes := put ⟨fun _ => none, fun _ => false⟩ pid (some ⟨pid, .new⟩)

/-- The variables of a thread change. -/
def modify (s : Processes) (t : ℤ) (f : CurrentThread → CurrentThread) : Processes :=
  s.put t ((s.threads t).map fun k => ⟨k.pid, f k.locals⟩)

/-- The steps; each is taken by the thread `t`. -/
inductive Action
  /-- `pthread_create` makes the thread `t'`. -/
  | create (t t' : ℤ)
  /-- `Tid()`, by itself or in `IsMainThread()`. -/
  | tid (t : ℤ)
  /-- `RunInThread`, up to the thread function. -/
  | runInThread (t : ℤ) (sName : List Char)
  /-- The thread function has returned. -/
  | finish (t : ℤ)
  /-- A `CThreadNameInitializer` is made. -/
  | nameInitializer (t : ℤ)
  /-- `fork` makes the process `t'`. -/
  | fork (t t' : ℤ)
  /-- The thread ends. -/
  | exit (t : ℤ)
  deriving DecidableEq, Repr

/-- The thread that takes the step. -/
def Action.thread : Action → ℤ
  | create t _ | tid t | runInThread t _ | finish t | nameInitializer t | fork t _ | exit t => t

/-- The step can be taken. -/
def Action.Enabled (s : Processes) (a : Action) : Prop :=
  (s.threads a.thread).isSome ∧
    match a with
    | create _ t' | fork _ t' => s.Fresh t'
    | _ => True

/-- The variables of the only thread of a new process, when `fork` has returned there. -/
def forked (s : Processes) (k : Task) (t' : ℤ) : CurrentThread :=
  if s.handlers k.pid then k.locals.afterFork t' else k.locals

/-- The state after the step. -/
def Action.next (s : Processes) : Action → Processes
  | create t t' =>
      match s.threads t with
      | some k => s.put t' (some ⟨k.pid, .new⟩)
      | none => s
  | tid t => s.modify t (·.tid t)
  | runInThread t sName => s.modify t (·.runInThread t sName)
  | finish t => s.modify t (·.finished)
  | nameInitializer t =>
      match s.threads t with
      | some k =>
          { s.modify t (·.nameInitializer t) with handlers := Function.update s.handlers k.pid true }
      | none => s
  | fork t t' =>
      match s.threads t with
      | some k =>
          { s.put t' (some ⟨t', s.forked k t'⟩) with
            handlers := Function.update s.handlers t' (s.handlers k.pid) }
      | none => s
  | exit t => s.put t none

/-- One step, as a relation between states. -/
def Step (s : Processes) (a : Action) (s' : Processes) : Prop := a.Enabled s ∧ s' = a.next s

/-! ## What a step leaves of every thread -/

/-- The property holds of every thread. -/
def Every (P : ℤ → Task → Prop) (s : Processes) : Prop := ∀ t k, s.threads t = some k → P t k

section Every

variable {P : ℤ → Task → Prop} {s s' : Processes} {a : Action} {t : ℤ}

/-- The entry that changes. -/
@[simp] theorem threads_put_self (new : Option Task) : (s.put t new).threads t = new := by
  simp [Processes.put]

/-- The other entries. -/
theorem threads_put_of_ne {u : ℤ} (h : u ≠ t) (new : Option Task) :
    (s.put t new).threads u = s.threads u := by
  simp [Processes.put, h]

/-- One entry changes. -/
theorem Every.put {new : Option Task} (h : s.Every P) (hnew : ∀ k, new = some k → P t k) :
    (s.put t new).Every P := by
  intro u k hk
  rcases eq_or_ne u t with rfl | hne
  · apply hnew
    rwa [threads_put_self] at hk
  · apply h
    rwa [threads_put_of_ne hne] at hk

/-- The variables of one thread change. -/
theorem Every.modify {f : CurrentThread → CurrentThread} (h : s.Every P)
    (hf : ∀ k, P t k → P t ⟨k.pid, f k.locals⟩) : (s.modify t f).Every P := by
  apply h.put
  intro k hk
  obtain ⟨old, hold, rfl⟩ := Option.map_eq_some_iff.mp hk
  exact hf old (h t old hold)

/-- **What every step keeps in every thread**: what a new thread has, what `Tid` and a new name
keep, and what `fork` hands on. -/
theorem Every.step (h : s.Every P) (hstep : Step s a s')
    (hnew : ∀ t pid, 0 < t ∧ t < 2 ^ 31 → P t ⟨pid, .new⟩)
    (htid : ∀ t k, P t k → P t ⟨k.pid, k.locals.tid t⟩)
    (hname : ∀ t k name, P t k → P t ⟨k.pid, { k.locals with threadName := name }⟩)
    (hfork : ∀ t t' k, a = .fork t t' → P t k → s.threads t = some k → s.Fresh t' →
      P t' ⟨t', s.forked k t'⟩) : s'.Every P := by
  obtain ⟨⟨hlive, hfresh⟩, rfl⟩ := hstep
  obtain ⟨k, hk⟩ := Option.isSome_iff_exists.mp hlive
  cases a with
  | create t t' =>
      change s.threads t = some k at hk
      rw [Action.next, hk]
      apply h.put
      rintro _ ⟨⟩
      exact hnew t' k.pid hfresh.1
  | tid t => exact h.modify (f := (·.tid t)) (htid t)
  | runInThread t sName =>
      apply h.modify (f := (·.runInThread t sName))
      intro k hP
      exact hname t ⟨k.pid, k.locals.tid t⟩ _ (htid t k hP)
  | finish t =>
      apply h.modify (f := (·.finished))
      intro k hP
      exact hname t k _ hP
  | nameInitializer t =>
      change s.threads t = some k at hk
      rw [Action.next, hk]
      apply h.modify (f := (·.nameInitializer t))
      intro k hP
      exact htid t ⟨k.pid, { k.locals with threadName := "main".toList }⟩ (hname t k _ hP)
  | fork t t' =>
      change s.threads t = some k at hk
      rw [Action.next, hk]
      apply h.put
      rintro _ ⟨⟩
      exact hfork t t' k rfl (h t k hk) hk hfresh
  | exit t =>
      apply h.put
      intro k hk
      cases hk

end Every

/-! ## The id -/

/-- What `Tid()` returns in the thread `t`. -/
def tidOf (t : ℤ) (k : Task) : ℤ := (k.locals.tid t).cachedTid

/-- What `IsMainThread()` returns in the thread `t`.
Source: `base/CurrentThread.cpp`, `CurrentThread::IsMainThread` -/
def isMainThread (t : ℤ) (k : Task) : Bool := tidOf t k = k.pid

/-- The cache is empty or right. -/
def Own (t : ℤ) (k : Task) : Prop := 0 < t ∧ (k.locals.cachedTid = 0 ∨ k.locals.cachedTid = t)

/-- Then `Tid()` is right. -/
theorem tidOf_of_own {t : ℤ} {k : Task} (h : Own t k) : tidOf t k = t := by
  rcases eq_or_ne k.locals.cachedTid 0 with h0 | hne
  · exact CurrentThread.cachedTid_tid_of_eq_zero h0 t
  · rw [tidOf, CurrentThread.tid_of_ne_zero hne]
    exact h.2.resolve_left hne

/-- Calling `Tid()` keeps the cache right. -/
theorem Own.tid {t : ℤ} {k : Task} (h : Own t k) : Own t ⟨k.pid, k.locals.tid t⟩ :=
  ⟨h.1, Or.inr (tidOf_of_own h)⟩

/-- A `fork` finds `AfterFork` registered, or the cache of its thread empty. -/
def Action.Covered (s : Processes) : Action → Prop
  | fork t _ => ∀ k, s.threads t = some k → s.handlers k.pid = true ∨ k.locals.cachedTid = 0
  | _ => True

/-- In every thread `Tid()` is the id, and `IsMainThread()` tells the main thread of its process. -/
def OwnIds (s : Processes) : Prop :=
  s.Every fun t k => tidOf t k = t ∧ (isMainThread t k = true ↔ t = k.pid)

/-- Caches that are right. -/
theorem ownIds_of_own {s : Processes} (h : s.Every Own) : s.OwnIds := by
  intro t k hk
  have htid := tidOf_of_own (h t k hk)
  refine ⟨htid, ?_⟩
  rw [isMainThread, htid, decide_eq_true_eq]

/-- **A covered step keeps the caches right.** -/
theorem own_step {s s' : Processes} {a : Action} (h : s.Every Own) (hok : a.Covered s)
    (hstep : Step s a s') : s'.Every Own := by
  apply h.step hstep
  · intro t pid ht
    exact ⟨ht.1, Or.inl rfl⟩
  · intro t k hown
    exact hown.tid
  · intro t k name hown
    exact hown
  · intro t t' k ha hown hk hfresh
    rw [ha] at hok
    refine ⟨hfresh.1.1, ?_⟩
    unfold forked
    split_ifs with hhandler
    · exact Or.inr (CurrentThread.cachedTid_afterFork k.locals t')
    · exact Or.inl ((hok k hk).resolve_left hhandler)

/-- What an uncovered `fork` leaves in the new process. -/
theorem fork_next {s : Processes} {t t' : ℤ} {k : Task} (hk : s.threads t = some k) :
    ((Action.fork t t').next s).threads t' = some ⟨t', s.forked k t'⟩ := by
  rw [Action.next, hk]
  exact threads_put_self _

/-- **After a `fork` that is not covered `Tid()` is wrong** in the new process. -/
theorem not_ownIds {s s' : Processes} {a : Action} (h : s.Every Own) (hnot : ¬ a.Covered s)
    (hstep : Step s a s') : ¬ s'.OwnIds := by
  obtain ⟨⟨hlive, hfresh⟩, rfl⟩ := hstep
  cases a with
  | fork t t' =>
      simp only [Action.Covered, not_forall, not_or] at hnot
      obtain ⟨k, hk, hhandler, hfilled⟩ := hnot
      intro hids
      have hchild := (hids t' _ (fork_next hk)).1
      rw [forked, if_neg hhandler, tidOf, CurrentThread.tid_of_ne_zero hfilled,
        (h t k hk).2.resolve_left hfilled] at hchild
      exact (hfresh.2 t k hk).1 hchild
  | _ => exact absurd trivial hnot

/-- A step leads to one state at most. -/
theorem step_unique (s : Processes) (a : Action) (t t' : Processes) (h : Step s a t)
    (h' : Step s a t') : t = t' := by
  rw [h.2, h'.2]

/-- A program that has just been started. -/
theorem every_new {P : ℤ → Task → Prop} {pid : ℤ} (h : P pid ⟨pid, .new⟩) : (new pid).Every P := by
  apply Every.put
  · intro t k hk
    cases hk
  · intro k hk
    cases hk
    exact h

/-- **Exactly when `Tid()` is right.** Let a program be started, and its threads and those of all
processes that come from it take any steps. Then after every step `Tid()` returns, in each thread,
the id of that thread, and `IsMainThread()` is true in the main thread of each process and nowhere
else, if and only if every `fork` found `AfterFork` registered in its process or the cache of its
thread empty. -/
theorem tid_run {pid : ℤ} (hpid : 0 < pid) {as : List Action}
    (hlegal : Along Step (fun s a => a.Enabled s) (new pid) as) :
    Along Step (fun s a => a.Covered s) (new pid) as ↔
      ∀ done a rest, as = done ++ a :: rest →
        ∃ s s', Run Step (new pid) done s ∧ Step s a s' ∧ s'.OwnIds := by
  have hnew : (new pid).Every Own := every_new ⟨hpid, Or.inl rfl⟩
  apply along_iff_good step_unique ?_ ?_ hlegal hnew
  · intro s a hown henabled hcovered
    have hstep : Step s a (a.next s) := ⟨henabled, rfl⟩
    have hkept := own_step hown hcovered hstep
    exact ⟨a.next s, hstep, hkept, ownIds_of_own hkept⟩
  · intro s a s' hown _ hnot hstep
    exact not_ownIds hown hnot hstep

/-- A program that makes a `CThreadNameInitializer` and forks. -/
def forksCovered : List Action := [.nameInitializer 100, .fork 100 101]

/-- An id besides that of the only thread. -/
theorem fresh_of_only {s : Processes} (h : s.Every fun t k => t = 100 ∧ k.pid = 100) :
    s.Fresh 101 := by
  refine ⟨by decide, fun u k hk => ?_⟩
  obtain ⟨rfl, hpid⟩ := h u k hk
  exact ⟨by decide, by rw [hpid]; decide⟩

/-- It may do so. -/
theorem legal_forksCovered : Along Step (fun s a => a.Enabled s) (new 100) forksCovered := by
  refine along_cons_iff.mpr ⟨⟨by decide, trivial⟩, fun s hs => ?_⟩
  refine along_cons_iff.mpr ⟨?_, fun _ _ => along_nil⟩
  refine ⟨by rw [hs.2]; decide, ?_⟩
  rw [hs.2]
  have honly : (new 100).Every fun t k => t = 100 ∧ k.pid = 100 := every_new ⟨rfl, rfl⟩
  exact fresh_of_only (honly.modify (f := (·.nameInitializer 100)) fun _ h => h)

/-- The theorem on it: the new process has its own id. -/
theorem tid_run_forksCovered : ∃ s s', Run Step (new 100) [.nameInitializer 100] s ∧
    Step s (.fork 100 101) s' ∧ s'.OwnIds := by
  refine (tid_run (by decide) legal_forksCovered).mp ?_ [.nameInitializer 100] _ [] rfl
  refine along_cons_iff.mpr ⟨trivial, fun s hs => ?_⟩
  refine along_cons_iff.mpr ⟨fun k hk => Or.inl ?_, fun _ _ => along_nil⟩
  rw [hs.2] at hk ⊢
  cases hk
  decide

/-! ## A wrong id -/

/-- The thread `t` lives, and its cache has the id `c`. -/
def Caches (t c : ℤ) (s : Processes) : Prop :=
  ∃ k, s.threads t = some k ∧ k.locals.cachedTid = c

/-- The variables of a thread change, but not its cache. -/
theorem Caches.modify {s : Processes} {u c : ℤ} {f : CurrentThread → CurrentThread} (t : ℤ)
    (h : s.Caches u c) (hf : ∀ l, l.cachedTid = c → (f l).cachedTid = c) :
    (s.modify t f).Caches u c := by
  obtain ⟨k, hk, hcached⟩ := h
  rcases eq_or_ne u t with rfl | hne
  · refine ⟨⟨k.pid, f k.locals⟩, ?_, hf k.locals hcached⟩
    rw [Processes.modify, threads_put_self, hk, Option.map_some]
  · refine ⟨k, ?_, hcached⟩
    rw [Processes.modify, threads_put_of_ne hne, hk]

/-- Another entry changes. -/
theorem Caches.put {s : Processes} {u c t : ℤ} (h : s.Caches u c) (hne : u ≠ t) (new : Option Task) :
    (s.put t new).Caches u c := by
  obtain ⟨k, hk, hcached⟩ := h
  exact ⟨k, (threads_put_of_ne hne new).trans hk, hcached⟩

/-- **Until the end of a thread its cache, once filled, is what it was.** -/
theorem Caches.step {s s' : Processes} {a : Action} {u c : ℤ} (hc : c ≠ 0) (h : s.Caches u c)
    (ha : a ≠ .exit u) (hstep : Step s a s') : s'.Caches u c := by
  obtain ⟨⟨hlive, hfresh⟩, rfl⟩ := hstep
  obtain ⟨old, hold⟩ := Option.isSome_iff_exists.mp hlive
  have hfilled : ∀ t (l : CurrentThread), l.cachedTid = c → (l.tid t).cachedTid = c := by
    intro t l hl
    rw [CurrentThread.tid_of_ne_zero (hl ▸ hc), hl]
  have hother : ∀ t', s.Fresh t' → u ≠ t' := by
    obtain ⟨k, hk, -⟩ := h
    intro t' hfresh
    exact (hfresh.2 u k hk).1
  cases a with
  | create t t' =>
      change s.threads t = some old at hold
      rw [Action.next, hold]
      exact h.put (hother t' hfresh) _
  | tid t => exact h.modify (f := (·.tid t)) t (hfilled t)
  | runInThread t sName => exact h.modify (f := (·.runInThread t sName)) t (hfilled t)
  | finish t => exact h.modify (f := (·.finished)) t fun _ hl => hl
  | nameInitializer t =>
      change s.threads t = some old at hold
      rw [Action.next, hold]
      apply h.modify (f := (·.nameInitializer t)) t
      intro l hl
      exact hfilled t _ hl
  | fork t t' =>
      change s.threads t = some old at hold
      rw [Action.next, hold]
      exact h.put (hother t' hfresh) _
  | exit t =>
      have hne : u ≠ t := fun heq => ha (heq ▸ rfl)
      exact h.put hne none

/-- **A wrong id stays.** After a `fork` that is not covered `Tid()` returns in the new process the
id that was cached in the old one, whatever happens, until the thread ends. -/
theorem stale_run {s s' u : Processes} {t t' : ℤ} {k : Task} {as : List Action}
    (hk : s.threads t = some k) (hhandler : s.handlers k.pid = false)
    (hfilled : k.locals.cachedTid ≠ 0) (hstep : Step s (.fork t t') s') (hrun : Run Step s' as u)
    (hexit : .exit t' ∉ as) :
    ∃ k', u.threads t' = some k' ∧ tidOf t' k' = k.locals.cachedTid := by
  have hstart : s'.Caches t' k.locals.cachedTid := by
    refine ⟨⟨t', s.forked k t'⟩, ?_, ?_⟩
    · rw [hstep.2, fork_next hk]
    · rw [forked, hhandler]
      rfl
  obtain ⟨k', hk', hcached⟩ :=
    hrun.invariant_avoiding (fun v a w h ha hvw => Caches.step hfilled h ha hvw) hexit hstart
  refine ⟨k', hk', ?_⟩
  rw [tidOf, CurrentThread.tid_of_ne_zero (hcached ▸ hfilled), hcached]

/-- The theorem on a program that asks for its id, forks, and goes on in the new process. -/
theorem stale_run_child : ∃ u k, Run Step (new 100)
    [.tid 100, .fork 100 101, .nameInitializer 101, .tid 101] u ∧ u.threads 101 = some k ∧
      tidOf 101 k = 100 := by
  have honly : (new 100).Every fun t k => t = 100 ∧ k.pid = 100 := every_new ⟨rfl, rfl⟩
  have hfresh : ((Action.tid 100).next (new 100)).Fresh 101 :=
    fresh_of_only (honly.modify (f := (·.tid 100)) fun _ h => h)
  have hask : Step (new 100) (.tid 100) ((Action.tid 100).next (new 100)) :=
    ⟨⟨by decide, trivial⟩, rfl⟩
  let s := (Action.fork 100 101).next ((Action.tid 100).next (new 100))
  have hfork : Step ((Action.tid 100).next (new 100)) (.fork 100 101) s :=
    ⟨⟨by decide, hfresh⟩, rfl⟩
  have hinit : Step s (.nameInitializer 101) ((Action.nameInitializer 101).next s) :=
    ⟨⟨by decide, trivial⟩, rfl⟩
  have hagain : Step ((Action.nameInitializer 101).next s) (.tid 101) _ :=
    ⟨⟨by decide, trivial⟩, rfl⟩
  have hlater := Run.cons hinit (Run.single hagain)
  obtain ⟨k, hk, hstale⟩ := stale_run rfl rfl (by decide) hfork hlater (by decide)
  exact ⟨_, k, .cons hask (.cons hfork hlater), hk, hstale⟩

/-! ## The text of the id -/

/-- The id is one of the kernel's, and the text is that of the cache. -/
def TextOk (t : ℤ) (k : Task) : Prop :=
  (0 < t ∧ t < 2 ^ 31) ∧ (k.locals.cachedTid ≠ 0 →
    k.locals.tidString = blankPadded 5 k.locals.cachedTid ∧
      k.locals.tidStringLength = k.locals.tidString.length)

/-- The text of an id is not cut off. -/
theorem snprintf_tid {t : ℤ} (h : 0 < t ∧ t < 2 ^ 31) :
    snprintf 32 (blankPadded 5 t) = blankPadded 5 t := by
  have hlen : (blankPadded 5 t).length ≤ 10 + 1 :=
    length_blankPadded_le (by decide) (by omega) (by decide)
  exact snprintf_of_lt (by omega)

/-- `Tid()` writes the text. -/
theorem TextOk.tid {t : ℤ} {k : Task} (h : TextOk t k) : TextOk t ⟨k.pid, k.locals.tid t⟩ := by
  refine ⟨h.1, fun hfilled => ?_⟩
  by_cases h0 : k.locals.cachedTid = 0
  · have htext := snprintf_tid h.1
    simp [CurrentThread.tid, CurrentThread.cacheTid, h0, htext]
  · change (k.locals.tid t).cachedTid ≠ 0 at hfilled
    change (k.locals.tid t).tidString = _ ∧ _
    rw [CurrentThread.tid_of_ne_zero h0]
    exact h.2 h0

/-- **The text of the id** is `%5d` of what is cached, with its length, in every thread and after
any steps. -/
theorem tidString_run {pid : ℤ} (hpid : 0 < pid ∧ pid < 2 ^ 31) {as : List Action} {s : Processes}
    (hrun : Run Step (new pid) as s) : s.Every TextOk := by
  refine hrun.invariant (I := Every TextOk) ?_ (every_new ⟨hpid, fun h => absurd rfl h⟩)
  intro s a s' h hstep
  apply h.step hstep
  · intro t _ ht
    exact ⟨ht, fun h => absurd rfl h⟩
  · intro t k htext
    exact htext.tid
  · intro t k name htext
    exact htext
  · intro t t' k _ htext _ hfresh
    unfold forked
    split_ifs with hhandler
    · exact TextOk.tid (k := ⟨t', { k.locals with cachedTid := 0, threadName := "main".toList }⟩)
        ⟨hfresh.1, fun h => absurd rfl h⟩
    · exact ⟨hfresh.1, htext.2⟩

end Processes

end Neconet
