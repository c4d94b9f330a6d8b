import Mathlib.Data.Finset.Basic
import Mathlib.Data.Int.ModEq
import Neconet.Net.TcpServer

/-!
# The connection table

What `m_mConnectionMap` of `net/CTcpServer.cpp` is for: the set of the connections that have been
accepted and not closed. A connection is entered under the name that `__NewConnection` makes from
`m_nNextConnId`, and `__RemoveConnection` erases what is entered under its name.

* `connNameOf`: the name of the `i`-th connection. `connNameOf_inj`: two connections have the same
  name exactly if their numbers agree modulo `2 ^ 32`.
* `ServerTable`, `Action`, `Step`: the server and its connections, accepted and closed in any order.
* `ServerTable.Exact`: the table stands for the live connections.
* `exactTable_iff`: a run keeps the table exact exactly if it never accepts a connection while
  another whose number agrees modulo `2 ^ 32` is live.
* `not_exactTable_wrap`: `2 ^ 32` connections behind one that stays open.
-/

namespace Neconet

open Transition

/-! ## Names -/

/-- A decimal digit is no minus sign. -/
theorem minus_not_mem_toDigits (n : ℕ) : '-' ∉ Nat.toDigits 10 n := by
  intro h
  have hdigit := Nat.isDigit_of_mem_toDigits (by decide) le_rfl h
  revert hdigit
  decide

/-- The decimal digits determine the number. -/
theorem toDigits_ten_injective : Function.Injective (Nat.toDigits 10) := by
  intro m n h
  have hm : Nat.ofDigitChars 10 (Nat.toDigits 10 m) 0 = m := Nat.ofDigitChars_ten_toDigits
  rw [h] at hm
  rw [← hm]
  exact Nat.ofDigitChars_ten_toDigits

/-- `%d` determines the number. -/
theorem decimal_injective : Function.Injective decimal := by
  intro x y h
  rcases x with m | m <;> rcases y with n | n
  · rw [toDigits_ten_injective h]
  · have hmem : '-' ∈ decimal (Int.ofNat m) := by
      rw [h]
      exact List.mem_cons_self
    exact absurd hmem (minus_not_mem_toDigits m)
  · have hmem : '-' ∈ decimal (Int.ofNat n) := by
      rw [← h]
      exact List.mem_cons_self
    exact absurd hmem (minus_not_mem_toDigits n)
  · have hdigits := toDigits_ten_injective (List.cons.inj h).2
    simp only [Nat.add_right_cancel_iff] at hdigits
    rw [hdigits]

/-- The name that a server named `sName` gives to its `i`-th connection. -/
def connNameOf (sName : List Char) (i : ℕ) : List Char :=
  sName ++ '#' :: decimal (BitVec.ofNat 32 (i + 1)).toInt

/-- Names are the same exactly if the numbers agree modulo `2 ^ 32`. -/
theorem connNameOf_inj {sName : List Char} {i j : ℕ} :
    connNameOf sName i = connNameOf sName j ↔ i ≡ j [MOD 2 ^ 32] := by
  unfold connNameOf
  rw [List.append_cancel_left_eq, List.cons.injEq, and_iff_right rfl, decimal_injective.eq_iff,
    BitVec.toInt_inj]
  constructor
  · intro h
    have hmod : (i + 1) % 2 ^ 32 = (j + 1) % 2 ^ 32 := by
      simpa using congrArg BitVec.toNat h
    exact Nat.ModEq.add_right_cancel' 1 hmod
  · intro h
    have hmod : (i + 1) % 2 ^ 32 = (j + 1) % 2 ^ 32 := h.add_right 1
    apply BitVec.eq_of_toNat_eq
    simpa using hmod

/-! ## The server and its connections -/

/-- The server with the connections it has accepted. -/
structure ServerTable where
  /-- The server. -/
  server : CTcpServer
  /-- How many connections have been accepted so far. -/
  created : ℕ
  /-- The connections that have not been closed. -/
  live : Finset ℕ
  /-- `m_sName` of the connections. -/
  name : ℕ → List Char

/-- The calls on the table. -/
inductive TableAction
  /-- `__NewConnection`. -/
  | newConnection
  /-- `__RemoveConnection` for the connection `i`. -/
  | removeConnection (i : ℕ)
  deriving DecidableEq, Repr

namespace ServerTable

/-- A new server. -/
def new (sName : List Char) : ServerTable where
  server := .new sName
  created := 0
  live := ∅
  name _ := []

/-- The state after `__NewConnection`. -/
def accept (s : ServerTable) : ServerTable where
  server := s.server.newConnection s.created
  created := s.created + 1
  live := insert s.created s.live
  name := Function.update s.name s.created s.server.connName

/-- The state after the call, or the fault in it. -/
def run (s : ServerTable) : TableAction → Except Fault ServerTable
  | .newConnection => .ok s.accept
  | .removeConnection i => do
      let server ← s.server.removeConnection (s.name i)
      return { s with server := server, live := s.live.erase i }

/-- One call that returns, as a relation between states. -/
def Step (s : ServerTable) (a : TableAction) (s' : ServerTable) : Prop := s.run a = .ok s'

/-- A connection is closed at most once. -/
def Legal (s : ServerTable) : TableAction → Prop
  | .newConnection => True
  | .removeConnection i => i ∈ s.live

/-- A connection is accepted only while no live connection has a number that agrees with its own
modulo `2 ^ 32`. -/
def Distinct (s : ServerTable) : TableAction → Prop
  | .newConnection => ∀ i ∈ s.live, ¬ i ≡ s.created [MOD 2 ^ 32]
  | .removeConnection _ => True

/-- The table stands for the live connections: it holds them and nothing else, each under its own
name, and no two under the same. -/
structure Exact (s : ServerTable) : Prop where
  /-- The table holds the live connections under their names. -/
  lookup_iff : ∀ n i, s.server.connectionMap.lookup n = some i ↔ i ∈ s.live ∧ s.name i = n
  /-- The names of live connections are distinct. -/
  name_inj : ∀ i ∈ s.live, ∀ j ∈ s.live, s.name i = s.name j → i = j

/-- The call has left an exact table; a new connection has not replaced another, and what was
erased is the entry of the connection that was closed. -/
def Good (s : ServerTable) (a : TableAction) (s' : ServerTable) : Prop :=
  s'.Exact ∧ match a with
    | .newConnection => s.server.connName ∉ s.server.connectionMap
    | .removeConnection i => s.server.connectionMap.lookup (s.name i) = some i ∧
        ∀ n, n ≠ s.name i → s'.server.connectionMap.lookup n = s.server.connectionMap.lookup n

/-! ## What a call does -/

/-- The table is exact, and the names come from the counter. -/
structure TableInv (s : ServerTable) : Prop where
  /-- The table is exact. -/
  exact_table : s.Exact
  /-- The counter has counted the connections. -/
  nextConnId_eq : s.server.nextConnId = BitVec.ofNat 32 (s.created + 1)
  /-- Connections have the names that were made for them. -/
  name_eq : ∀ i < s.created, s.name i = connNameOf s.server.sName i
  /-- Live connections have been accepted. -/
  live_lt : ∀ i ∈ s.live, i < s.created

/-- The table of a new server is exact. -/
theorem tableInv_new (sName : List Char) : (new sName).TableInv where
  exact_table :=
    { lookup_iff := by simp [new, CTcpServer.new]
      name_inj := by simp [new] }
  nextConnId_eq := rfl
  name_eq := by simp [new]
  live_lt := by simp [new]

section call

variable {s s' : ServerTable}

/-- The name for the next connection is the one of its number. -/
theorem TableInv.connName_eq (h : s.TableInv) :
    s.server.connName = connNameOf s.server.sName s.created := by
  unfold CTcpServer.connName connNameOf
  rw [h.nextConnId_eq]

/-- The name for the next connection is in the table exactly if a live connection has it. -/
theorem TableInv.connName_mem_iff (h : s.TableInv) :
    s.server.connName ∈ s.server.connectionMap ↔ ∃ i ∈ s.live, i ≡ s.created [MOD 2 ^ 32] := by
  have hname : ∀ i ∈ s.live, s.name i = s.server.connName ↔ i ≡ s.created [MOD 2 ^ 32] := by
    intro i hi
    rw [h.name_eq i (h.live_lt i hi), h.connName_eq]
    exact connNameOf_inj
  rw [← AList.lookup_isSome, Option.isSome_iff_exists]
  constructor
  · rintro ⟨i, hi⟩
    obtain ⟨hlive, heq⟩ := (h.exact_table.lookup_iff _ i).mp hi
    exact ⟨i, hlive, (hname i hlive).mp heq⟩
  · rintro ⟨i, hlive, hmod⟩
    exact ⟨i, (h.exact_table.lookup_iff _ i).mpr ⟨hlive, (hname i hlive).mpr hmod⟩⟩

/-- The name of the new connection. -/
@[simp] theorem accept_name_self (s : ServerTable) : s.accept.name s.created = s.server.connName :=
  Function.update_self ..

/-- The other connections keep their names. -/
theorem accept_name_of_ne {i : ℕ} (hi : i ≠ s.created) : s.accept.name i = s.name i :=
  Function.update_of_ne hi ..

/-- A connection that is entered under a name that is not in the table replaces nothing. -/
theorem Exact.accept (h : s.Exact) (hlive : s.created ∉ s.live)
    (hname : s.server.connName ∉ s.server.connectionMap) : s.accept.Exact := by
  have hother : ∀ i ∈ s.live, s.accept.name i = s.name i := by
    intro i hi
    apply accept_name_of_ne
    rintro rfl
    exact hlive hi
  have hne : ∀ i ∈ s.live, s.accept.name i ≠ s.server.connName := by
    intro i hi heq
    apply hname
    rw [← AList.lookup_isSome, (h.lookup_iff _ i).mpr ⟨hi, (hother i hi).symm.trans heq⟩]
    rfl
  have hmap : s.accept.server.connectionMap =
      s.server.connectionMap.insert s.server.connName s.created := rfl
  constructor
  · intro n i
    rw [hmap]
    change _ ↔ i ∈ insert s.created s.live ∧ _
    rw [Finset.mem_insert]
    by_cases hn : n = s.server.connName
    · subst hn
      rw [AList.lookup_insert, Option.some.injEq]
      constructor
      · rintro rfl
        exact ⟨Or.inl rfl, accept_name_self s⟩
      · rintro ⟨rfl | hi, heq⟩
        · rfl
        · exact absurd heq (hne i hi)
    · rw [AList.lookup_insert_ne hn, h.lookup_iff]
      constructor
      · rintro ⟨hi, heq⟩
        exact ⟨Or.inr hi, (hother i hi).trans heq⟩
      · rintro ⟨rfl | hi, heq⟩
        · exact absurd (heq.symm.trans (accept_name_self s)) hn
        · exact ⟨hi, (hother i hi).symm.trans heq⟩
  · intro i hi j hj hij
    rcases Finset.mem_insert.mp hi with rfl | hi <;> rcases Finset.mem_insert.mp hj with rfl | hj
    · rfl
    · exact absurd (hij.symm.trans (accept_name_self s)) (hne j hj)
    · exact absurd (hij.trans (accept_name_self s)) (hne i hi)
    · rw [hother i hi, hother j hj] at hij
      exact h.name_inj i hi j hj hij

/-- **`__NewConnection`** under a name that is not in the table keeps the table exact. -/
theorem TableInv.newConnection (h : s.TableInv)
    (hname : s.server.connName ∉ s.server.connectionMap) :
    ∃ s', Step s .newConnection s' ∧ s'.TableInv ∧ Good s .newConnection s' := by
  have hlive : s.created ∉ s.live := fun hmem => lt_irrefl _ (h.live_lt _ hmem)
  have hexact := h.exact_table.accept hlive hname
  refine ⟨s.accept, rfl, ⟨hexact, ?_, ?_, ?_⟩, hexact, hname⟩
  · change s.server.nextConnId + 1 = BitVec.ofNat 32 (s.created + 1 + 1)
    rw [h.nextConnId_eq]
    simp [BitVec.ofNat_add]
  · intro i hi
    by_cases hic : i = s.created
    · subst hic
      exact (accept_name_self s).trans h.connName_eq
    · have hlt : i < s.created := by
        have hle : i < s.created + 1 := hi
        omega
      exact (accept_name_of_ne hic).trans (h.name_eq i hlt)
  · intro i hi
    rcases Finset.mem_insert.mp hi with rfl | hi
    · exact Nat.lt_succ_self _
    · exact (h.live_lt i hi).trans (Nat.lt_succ_self _)

/-- **`__RemoveConnection`** of a live connection erases its entry and no other. -/
theorem TableInv.removeConnection (h : s.TableInv) {i : ℕ} (hi : i ∈ s.live) :
    ∃ s', Step s (.removeConnection i) s' ∧ s'.TableInv ∧ Good s (.removeConnection i) s' := by
  have hlookup : s.server.connectionMap.lookup (s.name i) = some i :=
    (h.exact_table.lookup_iff _ i).mpr ⟨hi, rfl⟩
  have hmem : s.name i ∈ s.server.connectionMap := by
    rw [← AList.lookup_isSome, hlookup]
    rfl
  set server : CTcpServer :=
    { s.server with connectionMap := s.server.connectionMap.erase (s.name i) } with hserver
  have hother : ∀ n, n ≠ s.name i →
      server.connectionMap.lookup n = s.server.connectionMap.lookup n :=
    fun n hn => AList.lookup_erase_ne hn
  have hexact : Exact { s with server := server, live := s.live.erase i } := by
    constructor
    · intro n j
      change server.connectionMap.lookup n = some j ↔ j ∈ s.live.erase i ∧ s.name j = n
      rw [Finset.mem_erase]
      by_cases hn : n = s.name i
      · subst hn
        simp only [hserver, AList.lookup_erase, reduceCtorEq, false_iff]
        rintro ⟨⟨hji, hj⟩, heq⟩
        exact hji (h.exact_table.name_inj j hj i hi heq)
      · rw [hother n hn, h.exact_table.lookup_iff]
        constructor
        · rintro ⟨hj, rfl⟩
          refine ⟨⟨?_, hj⟩, rfl⟩
          rintro rfl
          exact hn rfl
        · rintro ⟨⟨-, hj⟩, heq⟩
          exact ⟨hj, heq⟩
    · intro j hj k hk hjk
      exact h.exact_table.name_inj j (Finset.mem_of_mem_erase hj) k (Finset.mem_of_mem_erase hk) hjk
  refine ⟨_, ?_, ⟨hexact, h.nextConnId_eq, h.name_eq, ?_⟩, hexact, hlookup, hother⟩
  · simp [Step, run, CTcpServer.removeConnection, check_of hmem, hserver, pure, Except.pure]
  · intro j hj
    exact h.live_lt j (Finset.mem_of_mem_erase hj)

/-- A legal call that keeps the names distinct returns and is good. -/
theorem TableInv.step (h : s.TableInv) {a : TableAction} (hlegal : s.Legal a)
    (hdistinct : s.Distinct a) : ∃ s', Step s a s' ∧ s'.TableInv ∧ Good s a s' := by
  cases a with
  | removeConnection i => exact h.removeConnection hlegal
  | newConnection =>
      apply h.newConnection
      rw [h.connName_mem_iff]
      rintro ⟨i, hi, hmod⟩
      exact hdistinct i hi hmod

/-- A connection that is accepted under the name of a live one replaces it. -/
theorem TableInv.not_good (h : s.TableInv) {a : TableAction} (hdistinct : ¬ s.Distinct a) :
    ¬ Good s a s' := by
  cases a with
  | removeConnection i => exact absurd trivial hdistinct
  | newConnection =>
      intro hgood
      apply hdistinct
      intro i hi hmod
      exact hgood.2 (h.connName_mem_iff.mpr ⟨i, hi, hmod⟩)

end call

/-! ## Runs -/

/-- Calls do one thing. -/
theorem step_unique (s : ServerTable) (a : TableAction) (t t' : ServerTable) (h : Step s a t)
    (h' : Step s a t') : t = t' :=
  Except.ok.inj (h.symm.trans h')

/-- **The connection table is exact** along a run in which every connection is closed at most once,
if and only if no connection is accepted while a live one has a number that agrees with its own
modulo `2 ^ 32`. -/
theorem exactTable_iff {sName : List Char} {as : List TableAction}
    (hlegal : Along Step Legal (new sName) as) :
    Along Step Distinct (new sName) as ↔ ∀ done a rest, as = done ++ a :: rest →
      ∃ s s', Run Step (new sName) done s ∧ Step s a s' ∧ Good s a s' :=
  along_iff_good step_unique (fun _ _ h hlegal hdistinct => h.step hlegal hdistinct)
    (fun _ _ _ h _ hdistinct _ => h.not_good hdistinct) hlegal (tableInv_new sName)

/-- The theorem on two connections, of which the first is closed. -/
theorem exactTable_two : ∃ s s', Run Step (new ['s']) [.newConnection, .newConnection] s ∧
    Step s (.removeConnection 0) s' ∧ Good s (.removeConnection 0) s' := by
  have hlegal : Along Step Legal (new ['s'])
      [.newConnection, .newConnection, .removeConnection 0] := by
    refine along_cons_iff.mpr ⟨trivial, fun t ht => ?_⟩
    cases Except.ok.inj ht
    refine along_cons_iff.mpr ⟨trivial, fun t ht => ?_⟩
    cases Except.ok.inj ht
    refine along_cons_iff.mpr ⟨?_, fun t ht => along_nil⟩
    change 0 ∈ insert 1 (insert 0 ∅)
    decide
  refine (exactTable_iff hlegal).mp ?_ [.newConnection, .newConnection] (.removeConnection 0) [] rfl
  refine along_cons_iff.mpr ⟨fun i hi => absurd hi (Finset.notMem_empty i), fun t ht => ?_⟩
  cases Except.ok.inj ht
  refine along_cons_iff.mpr ⟨fun i hi => ?_, fun t ht => ?_⟩
  · obtain rfl := Finset.mem_singleton.mp hi
    decide
  · cases Except.ok.inj ht
    exact along_cons_iff.mpr ⟨trivial, fun t ht => along_nil⟩

/-- One connection that stays open, and `n` behind it that are closed at once. -/
def churn : ℕ → List TableAction
  | 0 => [.newConnection]
  | n + 1 => churn n ++ [.newConnection, .removeConnection (n + 1)]

/-- Behind `n` connections that were closed at once, the first one is the only live one. -/
theorem churn_run (sName : List Char) {n : ℕ} (hn : n < 2 ^ 32) :
    ∃ s, Run Step (new sName) (churn n) s ∧ s.TableInv ∧ s.live = {0} ∧ s.created = n + 1 ∧
      Along Step Legal (new sName) (churn n) := by
  induction n with
  | zero =>
      have hdistinct : (new sName).Distinct .newConnection := by simp [Distinct, new]
      obtain ⟨s, hst, hinv, -⟩ := (tableInv_new sName).step (a := .newConnection) trivial hdistinct
      refine ⟨s, Run.single hst, hinv, ?_, ?_, along_cons_iff.mpr ⟨trivial, fun _ _ => along_nil⟩⟩
      · cases Except.ok.inj hst
        rfl
      · cases Except.ok.inj hst
        rfl
  | succ n ih =>
      obtain ⟨s, hrun, hinv, hlive, hcreated, hlegal⟩ := ih (by omega)
      have hdistinct : s.Distinct .newConnection := by
        intro i hi hmod
        rw [hlive, Finset.mem_singleton] at hi
        subst hi
        rw [hcreated] at hmod
        have hzero : 0 % 2 ^ 32 = (n + 1) % 2 ^ 32 := hmod
        omega
      obtain ⟨s₁, hst₁, hinv₁, -⟩ := hinv.step (a := .newConnection) trivial hdistinct
      have hlive₁ : s₁.live = {n + 1, 0} := by
        cases Except.ok.inj hst₁
        simp [accept, hlive, hcreated]
      have hmem : n + 1 ∈ s₁.live := by simp [hlive₁]
      obtain ⟨s₂, hst₂, hinv₂, -⟩ := hinv₁.removeConnection hmem
      have htail : Run Step s [.newConnection, .removeConnection (n + 1)] s₂ :=
        Run.cons hst₁ (Run.single hst₂)
      obtain ⟨server, -, hs₂⟩ := bind_eq_ok_iff.mp hst₂
      cases Except.ok.inj hs₂
      refine ⟨_, hrun.append htail, hinv₂, ?_, ?_, hlegal.append fun t ht => ?_⟩
      · simp [hlive₁]
      · cases Except.ok.inj hst₁
        simp [accept, hcreated]
      · obtain rfl := hrun.unique step_unique ht
        refine along_cons_iff.mpr ⟨trivial, fun t ht => ?_⟩
        obtain rfl := step_unique _ _ _ _ hst₁ ht
        exact along_cons_iff.mpr ⟨hmem, fun _ _ => along_nil⟩

/-- **`2 ^ 32` connections behind one that stays open**: the last of them is entered under the name
of the first, and the table has lost the first, which is live. -/
theorem not_exactTable_wrap : ∃ s s', Run Step (new ['s']) (churn (2 ^ 32 - 1)) s ∧
    Along Step Legal (new ['s']) (churn (2 ^ 32 - 1)) ∧ Step s .newConnection s' ∧ 0 ∈ s'.live ∧
    s'.server.connectionMap.lookup (s'.name 0) = some (2 ^ 32) ∧ ¬ s'.Exact := by
  obtain ⟨s, hrun, hinv, hlive, hcreated, hlegal⟩ := churn_run ['s'] (n := 2 ^ 32 - 1) (by decide)
  have hzero : 0 ∈ s.live := by simp [hlive]
  have hcreated' : s.created = 2 ^ 32 := by omega
  have hname : s.name 0 = s.server.connName := by
    rw [hinv.name_eq 0 (by omega), hinv.connName_eq, hcreated', connNameOf_inj]
    decide
  have hlookup : s.accept.server.connectionMap.lookup (s.accept.name 0) = some (2 ^ 32) := by
    rw [accept_name_of_ne (by omega), hname, ← hcreated']
    exact AList.lookup_insert _
  refine ⟨s, s.accept, hrun, hlegal, rfl, Finset.mem_insert_of_mem hzero, hlookup, fun h => ?_⟩
  have hfirst := (h.lookup_iff _ 0).mpr ⟨Finset.mem_insert_of_mem hzero, rfl⟩
  rw [hlookup, Option.some.injEq] at hfirst
  exact absurd hfirst (by decide)

end ServerTable

end Neconet
