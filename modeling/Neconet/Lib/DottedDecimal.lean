import Mathlib.Tactic

/-!
# Dotted decimal

The text of an IPv4 address, as the C library writes it (`inet_ntop`) and reads it (`inet_pton`):
four decimal numbers up to 255 without leading zeros, with dots between them.

* `InAddr`, `ntop`, `pton`: an address, its text, and the scan of a text.
* `pton_ntop`: an address is read back from its text.
* `ntop_of_pton`: what is read is the text of the address, so that no other text is accepted.
-/

namespace DottedDecimal

/-- An IPv4 address: `struct in_addr`, in the order of the network. -/
@[ext] structure InAddr where
  /-- The four bytes. -/
  bytes : List UInt8
  /-- There are four. -/
  length_eq : bytes.length = 4
  deriving DecidableEq, Repr

/-- The numbers with a dot in front of each but the first. -/
def dotted : List ℕ → List Char
  | [] => []
  | [n] => Nat.toDigits 10 n
  | n :: m :: rest => Nat.toDigits 10 n ++ '.' :: dotted (m :: rest)

/-- The text of an address. -/
def ntop (a : InAddr) : List Char := dotted (a.bytes.map UInt8.toNat)

/-! ## The scan -/

/-- What the scan of a text has read: the numbers in front of the last dot, and the digits behind
it. -/
structure Scan where
  /-- The numbers that are complete. -/
  octets : List ℕ
  /-- The number that is being read. -/
  current : ℕ
  /-- It has a digit. -/
  sawDigit : Bool
  deriving DecidableEq, Repr

/-- Nothing has been read. -/
def Scan.start : Scan := ⟨[], 0, false⟩

/-- One character. A digit behind a leading zero, a number above 255 and a fifth number are refused,
and so is a dot without a number in front of it. -/
def Scan.next (s : Scan) (ch : Char) : Option Scan :=
  if ch.isDigit then
    let new := 10 * s.current + (ch.toNat - '0'.toNat)
    if s.sawDigit ∧ s.current = 0 then none
    else if 255 < new then none
    else some { s with current := new, sawDigit := true }
  else if ch = '.' ∧ s.sawDigit then
    if s.octets.length + 1 = 4 then none
    else some ⟨s.octets ++ [s.current], 0, false⟩
  else none

/-- The address, when the text has ended behind the fourth number. -/
def Scan.result (s : Scan) : Option InAddr :=
  if h : s.sawDigit ∧ s.octets.length = 3 then
    some ⟨(s.octets ++ [s.current]).map UInt8.ofNat, by simp [h.2]⟩
  else none

/-- The address that the text stands for. -/
def pton (text : List Char) : Option InAddr :=
  (text.foldlM Scan.next Scan.start).bind Scan.result

/-! ## Digits -/

/-- A digit is the digit of its value. -/
theorem digitChar_of_isDigit {ch : Char} (h : ch.isDigit = true) :
    Nat.digitChar (ch.toNat - '0'.toNat) = ch ∧ ch.toNat - '0'.toNat < 10 := by
  obtain ⟨hlow, hhigh⟩ := Char.isDigit_iff_toNat.mp h
  have hzero : '0'.toNat = 48 := rfl
  have hnine : '9'.toNat = 57 := rfl
  have hlt : ch.toNat - '0'.toNat < 10 := by omega
  refine ⟨?_, hlt⟩
  apply Char.toNat_inj.mp
  rw [Nat.toNat_digitChar_of_lt_ten hlt]
  omega

/-- The value of the digit of a number. -/
theorem toNat_digitChar_sub {d : ℕ} (h : d < 10) : (Nat.digitChar d).toNat - '0'.toNat = d := by
  have hzero : '0'.toNat = 48 := rfl
  rw [Nat.toNat_digitChar_of_lt_ten h, hzero, Nat.add_sub_cancel_left]

/-! ## What has been read -/

/-- The text that leads to the state. -/
def Scan.text (s : Scan) : List Char :=
  s.octets.flatMap (fun n => Nat.toDigits 10 n ++ ['.']) ++
    if s.sawDigit then Nat.toDigits 10 s.current else []

/-- The numbers are bytes, and there is none without a digit. -/
structure Scan.Valid (s : Scan) : Prop where
  /-- The numbers that are complete. -/
  octets_le : ∀ n ∈ s.octets, n ≤ 255
  /-- The number that is being read. -/
  current_le : s.current ≤ 255
  /-- It is zero before its first digit. -/
  current_eq : s.sawDigit = false → s.current = 0

/-- Nothing has been read. -/
theorem valid_start : Scan.start.Valid where
  octets_le _ h := absurd h List.not_mem_nil
  current_le := Nat.zero_le _
  current_eq _ := rfl

/-- **One character**: the text grows by it. -/
theorem Scan.Valid.next {s s' : Scan} {ch : Char} (h : s.Valid) (hok : s.next ch = some s') :
    s'.Valid ∧ s'.text = s.text ++ [ch] := by
  unfold Scan.next at hok
  by_cases hdigit : ch.isDigit = true
  · obtain ⟨hchar, hlt⟩ := digitChar_of_isDigit hdigit
    rw [if_pos hdigit] at hok
    dsimp only at hok
    split_ifs at hok with hzero hbig
    cases Option.some.inj hok
    refine ⟨⟨h.octets_le, not_lt.mp hbig, fun hsaw => by cases hsaw⟩, ?_⟩
    unfold Scan.text
    by_cases hsaw : s.sawDigit = true
    · have hpos : 0 < s.current := Nat.pos_of_ne_zero fun h0 => hzero ⟨hsaw, h0⟩
      rw [if_pos rfl, if_pos hsaw, List.append_assoc,
        ← Nat.toDigits_append_toDigits (by decide) hpos hlt, Nat.toDigits_of_lt_base hlt, hchar]
    · have hnone := h.current_eq (by simpa using hsaw)
      rw [if_pos rfl, if_neg hsaw, hnone, Nat.mul_zero, Nat.zero_add, Nat.toDigits_of_lt_base hlt,
        hchar, List.append_nil]
  · rw [if_neg hdigit] at hok
    split_ifs at hok with hdot hfull
    cases Option.some.inj hok
    refine ⟨⟨fun n hn => ?_, Nat.zero_le _, fun _ => rfl⟩, ?_⟩
    · rcases List.mem_append.mp hn with hn | hn
      · exact h.octets_le n hn
      · rw [List.mem_singleton.mp hn]
        exact h.current_le
    · simp [Scan.text, hdot.1, hdot.2]

/-- A whole text. -/
theorem Scan.Valid.foldlM {s s' : Scan} {text : List Char} (h : s.Valid)
    (hok : text.foldlM Scan.next s = some s') : s'.Valid ∧ s'.text = s.text ++ text := by
  induction text generalizing s with
  | nil =>
      cases Option.some.inj hok
      exact ⟨h, (List.append_nil _).symm⟩
  | cons ch rest ih =>
      rw [List.foldlM_cons] at hok
      obtain ⟨s₁, hfirst, hrest⟩ := Option.bind_eq_some_iff.mp hok
      obtain ⟨h₁, htext₁⟩ := h.next hfirst
      obtain ⟨h', htext'⟩ := ih h₁ hrest
      refine ⟨h', ?_⟩
      rw [htext', htext₁, List.append_assoc]
      rfl

/-- The numbers and the dots between them. -/
theorem dotted_append (ns : List ℕ) (n : ℕ) :
    dotted (ns ++ [n]) = ns.flatMap (fun n => Nat.toDigits 10 n ++ ['.']) ++ Nat.toDigits 10 n := by
  induction ns with
  | nil => rfl
  | cons m rest ih =>
      have hmore : ∃ k ks, rest ++ [n] = k :: ks := by
        cases rest with
        | nil => exact ⟨n, [], rfl⟩
        | cons k ks => exact ⟨k, ks ++ [n], rfl⟩
      obtain ⟨k, ks, heq⟩ := hmore
      rw [List.cons_append, heq, dotted, ← heq, ih, List.flatMap_cons]
      simp

/-- A byte is read back from its number. -/
theorem toNat_ofNat_of_le {n : ℕ} (h : n ≤ 255) : (UInt8.ofNat n).toNat = n := by
  rw [UInt8.toNat_ofNat']
  exact Nat.mod_eq_of_lt (Nat.lt_succ_of_le h)

/-- **Only the text of an address is accepted.** -/
theorem ntop_of_pton {text : List Char} {a : InAddr} (h : pton text = some a) : ntop a = text := by
  obtain ⟨s, hscan, hresult⟩ := Option.bind_eq_some_iff.mp h
  obtain ⟨hvalid, htext⟩ := valid_start.foldlM hscan
  unfold Scan.result at hresult
  split_ifs at hresult with hend
  cases Option.some.inj hresult
  have hbytes : ((s.octets ++ [s.current]).map UInt8.ofNat).map UInt8.toNat =
      s.octets ++ [s.current] := by
    rw [List.map_map]
    refine List.map_congr_left (fun n hn => ?_) |>.trans (List.map_id _)
    rcases List.mem_append.mp hn with hn | hn
    · exact toNat_ofNat_of_le (hvalid.octets_le n hn)
    · rw [List.mem_singleton.mp hn]
      exact toNat_ofNat_of_le hvalid.current_le
  have hstart : Scan.start.text = [] := rfl
  rw [hstart, List.nil_append] at htext
  rw [ntop, hbytes, dotted_append, ← htext, Scan.text, if_pos hend.1]

/-! ## Reading a text back -/

/-- A digit that is accepted. -/
theorem Scan.next_digitChar {s : Scan} {d : ℕ} (hd : d < 10)
    (hzero : ¬ (s.sawDigit = true ∧ s.current = 0)) (hle : 10 * s.current + d ≤ 255) :
    s.next (Nat.digitChar d) =
      some { s with current := 10 * s.current + d, sawDigit := true } := by
  have hdigit : (Nat.digitChar d).isDigit = true := by simp [hd]
  unfold Scan.next
  rw [if_pos hdigit, toNat_digitChar_sub hd]
  dsimp only
  rw [if_neg hzero, if_neg (not_lt.mpr hle)]

/-- The digits of a byte. -/
theorem foldlM_toDigits (octets : List ℕ) {n : ℕ} (h : n ≤ 255) :
    (Nat.toDigits 10 n).foldlM Scan.next ⟨octets, 0, false⟩ = some ⟨octets, n, true⟩ := by
  induction n using Nat.strong_induction_on with
  | h n ih =>
      by_cases hsmall : n < 10
      · have hfirst : Scan.next ⟨octets, 0, false⟩ (Nat.digitChar n) = some ⟨octets, n, true⟩ := by
          rw [Scan.next_digitChar hsmall (fun hsaw => by cases hsaw.1) (by simpa using h)]
          simp
        rw [Nat.toDigits_of_lt_base hsmall, List.foldlM_cons, hfirst]
        rfl
      · have hlt : n % 10 < 10 := Nat.mod_lt n (by decide)
        have hne : n / 10 ≠ 0 := by omega
        have hvalue : 10 * (n / 10) + n % 10 = n := Nat.div_add_mod n 10
        rw [Nat.toDigits_of_base_le (by decide) (by omega), List.foldlM_append,
          ih (n / 10) (by omega) (by omega), Option.bind_eq_bind, Option.bind_some,
          List.foldlM_cons, Scan.next_digitChar hlt (fun hsaw => hne hsaw.2) (hvalue.le.trans h)]
        simp [hvalue]

/-- Numbers with dots, from the place behind a dot on. -/
theorem foldlM_dotted {octets ns : List ℕ} {n : ℕ} (hns : ∀ m ∈ ns, m ≤ 255) (hn : n ≤ 255)
    (hlen : octets.length + ns.length ≤ 3) :
    (dotted (ns ++ [n])).foldlM Scan.next ⟨octets, 0, false⟩ = some ⟨octets ++ ns, n, true⟩ := by
  induction ns generalizing octets with
  | nil =>
      rw [List.append_nil]
      exact foldlM_toDigits octets hn
  | cons m rest ih =>
      have hm := hns m List.mem_cons_self
      have hlen' : (octets ++ [m]).length + rest.length ≤ 3 := by
        rw [List.length_append, List.length_singleton]
        rw [List.length_cons] at hlen
        omega
      have hrest := ih (fun k hk => hns k (List.mem_cons_of_mem m hk)) hlen'
      have hdot : Scan.next ⟨octets, m, true⟩ '.' = some ⟨octets ++ [m], 0, false⟩ := by
        have hroom : ¬ octets.length + 1 = 4 := by
          rw [List.length_cons] at hlen
          omega
        have hdigit : ¬ '.'.isDigit = true := by decide
        unfold Scan.next
        rw [if_neg hdigit, if_pos ⟨rfl, rfl⟩, if_neg hroom]
      rw [dotted_append] at hrest ⊢
      rw [List.flatMap_cons, List.append_assoc, List.append_assoc, List.foldlM_append,
        foldlM_toDigits octets hm, Option.bind_eq_bind, Option.bind_some, List.singleton_append,
        List.foldlM_cons, hdot, Option.bind_eq_bind, Option.bind_some, hrest, List.append_assoc]
      rfl

/-- **An address is read back from its text.** -/
theorem pton_ntop (a : InAddr) : pton (ntop a) = some a := by
  have hbyte : ∀ b : UInt8, b.toNat ≤ 255 := fun b => Nat.le_of_lt_succ b.toNat_lt
  obtain ⟨bytes, hlen⟩ := a
  match bytes, hlen with
  | [b₀, b₁, b₂, b₃], _ =>
      have hfront : ∀ n ∈ [b₀.toNat, b₁.toNat, b₂.toNat], n ≤ 255 := by simp [hbyte]
      have hroom : ([] : List ℕ).length + [b₀.toNat, b₁.toNat, b₂.toNat].length ≤ 3 := le_rfl
      have hscan := foldlM_dotted hfront (hbyte b₃) hroom
      unfold pton
      have hntop : ntop ⟨[b₀, b₁, b₂, b₃], rfl⟩ =
          dotted ([b₀.toNat, b₁.toNat, b₂.toNat] ++ [b₃.toNat]) := rfl
      rw [hntop]
      unfold Scan.start
      rw [hscan, Option.bind_some]
      simp [Scan.result]

/-- Different addresses have different texts. -/
theorem ntop_injective : Function.Injective ntop := by
  intro a b h
  have ha := pton_ntop a
  rw [h, pton_ntop b] at ha
  exact (Option.some.inj ha).symm

end DottedDecimal
