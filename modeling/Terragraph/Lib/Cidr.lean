/-
Module: Terragraph.Lib.Cidr
Purpose: Networks in CIDR notation as aligned blocks of addresses with their subnets, and first-fit
  search for a free block of a level in a binary tree of blocks.
Trusted boundary: none
Main exports: Family, Network.ofBits_toBits, BlockTree.search, Packed.finer
-/
import Mathlib

namespace BlockTree

open Nat Function

/-!
A block of level `l` and number `o` holds the units from `o * 2 ^ (bottom - l)` on, as many as
`2 ^ (bottom - l)`; the units are the blocks of level `bottom`.
-/

/-- Depth-first search for a free block of level `target` from a block, so many levels down. -/
def search (taken : Nat → Option Nat) (target : Nat) : Nat → Nat → Nat → Option Nat
  | 0, _, _ => none
  | levels + 1, level, number =>
    if target < level then none
    else if (taken number).any (· ≤ level) then none
    else if level = target then some number
    else match search taken target levels (level + 1) (number * 2) with
      | some found => some found
      | none => search taken target levels (level + 1) (number * 2 + 1)

/-- The taken blocks have no finer level than `target` and fill the units below the frontier. -/
structure Packed (bottom : Nat) (taken : Nat → Option Nat) (target frontier : Nat) : Prop where
  coarse : ∀ number level, taken number = some level → level ≤ target
  inside : ∀ number level, taken number = some level →
    (number + 1) * 2 ^ (bottom - level) ≤ frontier
  covered : ∀ u < frontier, ∃ number level, taken number = some level ∧
    u / 2 ^ (bottom - level) = number
  aligned : 2 ^ (bottom - target) ∣ frontier

def Open (taken : Nat → Option Nat) (level number : Nat) : Prop :=
  ∀ other l, taken other = some l → l < level → number / 2 ^ (level - l) ≠ other

variable {bottom target frontier levels level number : Nat} {taken : Nat → Option Nat}

theorem Open.child (isOpen : Open taken level number)
    (free : (taken number).any (· ≤ level) = false) {bit : Nat} (binary : bit < 2) :
    Open taken (level + 1) (number * 2 + bit) := by
  intro other l isTaken above same
  have half : (number * 2 + bit) / 2 = number := by omega
  rcases (Nat.lt_succ_iff.mp above).lt_or_eq with higher | rfl
  · apply isOpen other l isTaken higher
    rw [← same, show level + 1 - l = 1 + (level - l) by omega, pow_add, pow_one,
      ← Nat.div_div_eq_div_mul, half]
  · rw [show l + 1 - l = 1 by omega, pow_one, half] at same
    rw [same, isTaken] at free
    simp at free

theorem width_eq (deep : level < bottom) : 2 ^ (bottom - level) = 2 * 2 ^ (bottom - (level + 1)) := by
  rw [← pow_succ']
  congr 1
  omega

theorem Packed.search_full (packed : Packed bottom taken target frontier)
    (within : target ≤ bottom) (isOpen : Open taken level number)
    (full : (number + 1) * 2 ^ (bottom - level) ≤ frontier) :
    search taken target levels level number = none := by
  induction levels generalizing level number with
  | zero => rfl
  | succ levels ih =>
    unfold search
    split
    · rfl
    split
    · rfl
    next _ notTaken =>
    have free : (taken number).any (· ≤ level) = false := by simpa using notTaken
    split
    · next atTarget =>
      -- the block that covers the first unit lies above or is this one
      subst atTarget
      have first : number * 2 ^ (bottom - level) < frontier :=
        lt_of_lt_of_le (Nat.mul_lt_mul_of_pos_right (Nat.lt_succ_self _) (Nat.two_pow_pos _)) full
      obtain ⟨other, l, isTaken, covers⟩ := packed.covered _ first
      have coarse := packed.coarse other l isTaken
      have lifted : number * 2 ^ (bottom - level) / 2 ^ (bottom - l) =
          number / 2 ^ (level - l) := by
        rw [show bottom - l = (bottom - level) + (level - l) by omega, pow_add,
          ← Nat.div_div_eq_div_mul, Nat.mul_div_cancel _ (Nat.two_pow_pos _)]
      rw [lifted] at covers
      rcases coarse.lt_or_eq with higher | rfl
      · exact absurd covers (isOpen other l isTaken higher)
      · rw [Nat.sub_self, Nat.pow_zero, Nat.div_one] at covers
        rw [covers, isTaken] at free
        simp at free
    · have below : level < bottom := by omega
      rw [width_eq below] at full
      have child : ∀ bit < 2, search taken target levels (level + 1) (number * 2 + bit) = none := by
        intro _ binary
        apply ih (isOpen.child free binary)
        refine le_trans (mul_le_mul_right _ ?_) ((mul_assoc _ _ _).trans_le full)
        omega
      rw [← Nat.add_zero (number * 2), child 0 two_pos, child 1 one_lt_two]

theorem Packed.search_frontier (packed : Packed bottom taken target frontier)
    (within : target ≤ bottom) (isOpen : Open taken level number) (shallow : level ≤ target)
    (deep : target < level + levels) (starts : number * 2 ^ (bottom - level) ≤ frontier)
    (ends : frontier < (number + 1) * 2 ^ (bottom - level)) :
    search taken target levels level number = some (frontier / 2 ^ (bottom - target)) := by
  induction levels generalizing level number with
  | zero => omega
  | succ levels ih =>
    have free : (taken number).any (· ≤ level) = false := by
      by_contra isTaken
      obtain ⟨l, stored, _⟩ : ∃ l, taken number = some l ∧ l ≤ level := by
        simpa [Option.any_eq_true] using isTaken
      have below := packed.inside number l stored
      have wider : (number + 1) * 2 ^ (bottom - level) ≤ (number + 1) * 2 ^ (bottom - l) :=
        Nat.mul_le_mul_left _ (Nat.pow_le_pow_right Nat.two_pos (by omega))
      omega
    unfold search
    rw [if_neg (not_lt.mpr shallow), if_neg (by simp [free])]
    split
    · next atTarget =>
      subst atTarget
      rw [Nat.div_eq_of_lt_le starts ends]
    · have below : level < bottom := by omega
      rw [width_eq below] at starts ends
      rw [← mul_assoc] at starts ends
      have leftOpen : Open taken (level + 1) (number * 2) := isOpen.child free two_pos
      rcases lt_or_ge frontier ((number * 2 + 1) * 2 ^ (bottom - (level + 1))) with
        inLeft | inRight
      · rw [ih leftOpen (by omega) (by omega) starts inLeft]
      · have left : search taken target levels (level + 1) (number * 2) = none :=
          packed.search_full within leftOpen inRight
        rw [left]
        exact ih (isOpen.child free one_lt_two) (by omega) (by omega)
          inRight (by rwa [show number * 2 + 1 + 1 = (number + 1) * 2 by omega])

/-- The search from the root finds the block at the frontier, as long as there is room. -/
theorem Packed.search_eq {top : Nat} (packed : Packed bottom taken target frontier)
    (within : target ≤ bottom) (shallow : top ≤ target) (deep : target < top + levels)
    (rooted : ∀ other l, taken other = some l → top ≤ l)
    (room : frontier < 2 ^ (bottom - top)) :
    search taken target levels top 0 = some (frontier / 2 ^ (bottom - target)) := by
  apply packed.search_frontier within _ shallow deep (by simp) (by simpa using room)
  intro other l isTaken _
  exact absurd (rooted other l isTaken) (by omega)

theorem packed_empty (bottom target : Nat) : Packed bottom (fun _ => none) target 0 where
  coarse := by simp
  inside := by simp
  covered := by simp
  aligned := dvd_zero _

theorem Packed.push (packed : Packed bottom taken target frontier) (within : target ≤ bottom) :
    Packed bottom (update taken (frontier / 2 ^ (bottom - target)) (some target)) target
      (frontier + 2 ^ (bottom - target)) := by
  obtain ⟨index, frontierEq⟩ := packed.aligned
  have positive : 0 < 2 ^ (bottom - target) := Nat.two_pow_pos _
  have indexEq : frontier / 2 ^ (bottom - target) = index := by
    rw [frontierEq, Nat.mul_div_cancel_left _ positive]
  rw [indexEq]
  have fresh : ∀ number l, taken number = some l → number ≠ index := by
    rintro number l isTaken rfl
    have below := packed.inside number l isTaken
    have wider : (number + 1) * 2 ^ (bottom - target) ≤ (number + 1) * 2 ^ (bottom - l) :=
      Nat.mul_le_mul_left _ (Nat.pow_le_pow_right Nat.two_pos
        (by have := packed.coarse number l isTaken; omega))
    rw [succ_mul, mul_comm] at wider
    omega
  have cases : ∀ number l, update taken index (some target) number = some l →
      (number = index ∧ l = target) ∨ taken number = some l := by
    intro number l isTaken
    by_cases here : number = index
    · rw [here, update_self] at isTaken
      exact .inl ⟨here, (Option.some.inj isTaken).symm⟩
    · rw [update_of_ne here] at isTaken
      exact .inr isTaken
  refine ⟨?_, ?_, ?_, ?_⟩
  · intro number l isTaken
    rcases cases number l isTaken with ⟨_, rfl⟩ | old
    · exact le_rfl
    · exact packed.coarse number l old
  · intro number l isTaken
    rcases cases number l isTaken with ⟨rfl, rfl⟩ | old
    · rw [succ_mul, frontierEq, mul_comm]
    · exact (packed.inside number l old).trans (le_add_right _ _)
  · intro u below
    rcases lt_or_ge u frontier with old | new
    · obtain ⟨number, l, isTaken, covers⟩ := packed.covered u old
      refine ⟨number, l, ?_, covers⟩
      rw [update_of_ne (fresh number l isTaken)]
      exact isTaken
    · refine ⟨index, target, update_self .., ?_⟩
      apply Nat.div_eq_of_lt_le
      · rw [Nat.mul_comm, ← frontierEq]
        exact new
      · rw [succ_mul, mul_comm, ← frontierEq]
        exact below
  · exact Nat.dvd_add packed.aligned (Nat.dvd_refl _)

theorem Packed.finer {target' : Nat} (packed : Packed bottom taken target frontier)
    (le : target ≤ target') : Packed bottom taken target' frontier where
  coarse number l isTaken := (packed.coarse number l isTaken).trans le
  inside := packed.inside
  covered := packed.covered
  aligned := (pow_dvd_pow 2 (by omega)).trans packed.aligned

end BlockTree

namespace Cidr

open Nat

/-- The two kinds of internet addresses. -/
inductive Family where
  | V4
  | V6
deriving DecidableEq, Repr

def Family.bitCount : Family → Nat
  | .V4 => 32
  | .V6 => 128

theorem Family.two_pow_bitCount_pos (family : Family) : 0 < 2 ^ family.bitCount :=
  Nat.two_pow_pos _

/-- A network: an address whose host bits are zero, and the length of its prefix. -/
@[ext]
structure Network where
  family : Family
  address : Nat
  length : Nat
  length_le : length ≤ family.bitCount
  masked : 2 ^ (family.bitCount - length) ∣ address
  bounded : address < 2 ^ family.bitCount
deriving DecidableEq

namespace Network

def orderKey (net : Network) : ℕ ×ₗ ℕ ×ₗ ℕ :=
  toLex (net.family.bitCount, toLex (net.address, net.length))

theorem orderKey_injective : Function.Injective orderKey := by
  intro first second same
  have parts := congrArg ofLex same
  have rest := congrArg ofLex (congrArg Prod.snd parts)
  have family : first.family = second.family := by
    have bits : first.family.bitCount = second.family.bitCount := congrArg Prod.fst parts
    cases firstFamily : first.family with
    | V4 => cases secondFamily : second.family with
      | V4 => rfl
      | V6 => simp [firstFamily, secondFamily, Family.bitCount] at bits
    | V6 => cases secondFamily : second.family with
      | V4 => simp [firstFamily, secondFamily, Family.bitCount] at bits
      | V6 => rfl
  exact Network.ext family (congrArg Prod.fst rest) (congrArg Prod.snd rest)

instance : LinearOrder Network := LinearOrder.lift' orderKey orderKey_injective

def size (net : Network) : Nat :=
  2 ^ (net.family.bitCount - net.length)

def Mem (net : Network) (x : Nat) : Prop :=
  net.address ≤ x ∧ x < net.address + net.size

instance (net : Network) : DecidablePred net.Mem :=
  fun _ => inferInstanceAs (Decidable (_ ∧ _))

def InSubnet (net outer : Network) : Prop :=
  net.family = outer.family ∧ outer.Mem net.address

instance (net outer : Network) : Decidable (net.InSubnet outer) :=
  inferInstanceAs (Decidable (_ ∧ _))

theorem size_pos (net : Network) : 0 < net.size :=
  Nat.two_pow_pos _

theorem address_add_size_le (net : Network) : net.address + net.size ≤ 2 ^ net.family.bitCount := by
  have divides : net.size ∣ 2 ^ net.family.bitCount :=
    pow_dvd_pow 2 (sub_le _ _)
  obtain ⟨total, spaceEq⟩ := divides
  obtain ⟨index, addressEq⟩ := net.masked
  have before := net.bounded
  rw [spaceEq, addressEq] at before
  have below : index < total := Nat.lt_of_mul_lt_mul_left before
  rw [spaceEq, addressEq]
  exact mul_le_mul_left _ below

/-- There is an `i`-th subnet of length `len`. -/
structure HasSubnet (net : Network) (len i : Nat) : Prop where
  length_le : net.length ≤ len
  le_bitCount : len ≤ net.family.bitCount
  index_lt : i < 2 ^ (len - net.length)

instance (net : Network) (len i : Nat) : Decidable (net.HasSubnet len i) :=
  decidable_of_iff (net.length ≤ len ∧ len ≤ net.family.bitCount ∧ i < 2 ^ (len - net.length))
    ⟨fun ⟨a, b, c⟩ => ⟨a, b, c⟩, fun ⟨a, b, c⟩ => ⟨a, b, c⟩⟩

variable {net : Network} {len : Nat}

theorem size_eq (longer : net.length ≤ len) (fits : len ≤ net.family.bitCount) :
    net.size = 2 ^ (len - net.length) * 2 ^ (net.family.bitCount - len) := by
  rw [← pow_add, size]
  congr 1
  omega

variable {i : Nat}

theorem HasSubnet.offset_lt (has : net.HasSubnet len i) :
    i * 2 ^ (net.family.bitCount - len) + 2 ^ (net.family.bitCount - len) ≤ net.size := by
  rw [size_eq has.length_le has.le_bitCount, ← succ_mul]
  exact mul_le_mul_right _ has.index_lt

/-- The `i`-th subnet of length `len`. -/
def subnet (net : Network) (len i : Nat) (has : net.HasSubnet len i) : Network where
  family := net.family
  address := net.address + i * 2 ^ (net.family.bitCount - len)
  length := len
  length_le := has.le_bitCount
  masked := by
    apply Nat.dvd_add
    · have coarser : net.family.bitCount - len ≤ net.family.bitCount - net.length :=
        Nat.sub_le_sub_left has.length_le _
      exact (pow_dvd_pow 2 coarser).trans net.masked
    · exact dvd_mul_left _ _
  bounded := by
    have inside := has.offset_lt
    have ends := net.address_add_size_le
    have positive : 0 < 2 ^ (net.family.bitCount - len) := Nat.two_pow_pos _
    omega

variable {x : Nat}

section Subnet

variable (has : net.HasSubnet len i)

@[simp] theorem subnet_length : (net.subnet len i has).length = len := rfl

theorem subnet_address :
    (net.subnet len i has).address = net.address + i * 2 ^ (net.family.bitCount - len) := rfl

@[simp] theorem subnet_size : (net.subnet len i has).size = 2 ^ (net.family.bitCount - len) := rfl

theorem mem_of_mem_subnet (member : (net.subnet len i has).Mem x) : net.Mem x := by
  obtain ⟨starts, ends⟩ := member
  rw [subnet_size, subnet_address] at ends
  rw [subnet_address] at starts
  have inside := has.offset_lt
  exact ⟨by omega, by omega⟩

theorem subnet_inSubnet : (net.subnet len i has).InSubnet net := by
  refine ⟨rfl, mem_of_mem_subnet has ⟨le_rfl, ?_⟩⟩
  exact Nat.lt_add_of_pos_right (size_pos _)

end Subnet

theorem mem_subnet_iff (has : net.HasSubnet len i) :
    (net.subnet len i has).Mem x ↔
      net.address ≤ x ∧ (x - net.address) / 2 ^ (net.family.bitCount - len) = i := by
  have positive : 0 < 2 ^ (net.family.bitCount - len) := Nat.two_pow_pos _
  unfold Mem
  rw [subnet_size, subnet_address, Nat.div_eq_iff positive]
  constructor
  · intro ⟨starts, ends⟩
    exact ⟨by omega, by omega, by omega⟩
  · intro ⟨starts, low, high⟩
    exact ⟨by omega, by omega⟩

theorem subnet_injective {len i j : Nat} (hasI : net.HasSubnet len i) (hasJ : net.HasSubnet len j)
    (same : net.subnet len i hasI = net.subnet len j hasJ) :
    i = j := by
  have first : (net.subnet len i hasI).Mem (net.subnet len i hasI).address :=
    ⟨le_rfl, Nat.lt_add_of_pos_right (size_pos _)⟩
  have second : (net.subnet len j hasJ).Mem (net.subnet len i hasI).address := by
    rw [← same]
    exact first
  exact ((mem_subnet_iff hasI).mp first).2.symm.trans ((mem_subnet_iff hasJ).mp second).2

/-- The `i`-th subnet of length `len`, or the network itself if there is none. -/
def subnetAt (net : Network) (len i : Nat) : Network :=
  if has : net.HasSubnet len i then net.subnet len i has else net

theorem subnetAt_eq (has : net.HasSubnet len i) :
    net.subnetAt len i = net.subnet len i has :=
  dif_pos has

/-! ### Nested networks -/

section Nested

variable {inner outer : Network}

theorem size_dvd_size (family : inner.family = outer.family) (longer : outer.length ≤ inner.length) :
    inner.size ∣ outer.size := by
  rw [size, family]
  exact Nat.pow_dvd_pow 2 (Nat.sub_le_sub_left longer _)

theorem InSubnet.mem (within : inner.InSubnet outer) (longer : outer.length ≤ inner.length)
    (member : inner.Mem x) : outer.Mem x := by
  obtain ⟨family, starts, before⟩ := within
  obtain ⟨ratio, ratioEq⟩ := size_dvd_size family longer
  have innerAligned : inner.size ∣ inner.address := inner.masked
  have outerAligned : outer.size ∣ outer.address := outer.masked
  obtain ⟨i, innerEq⟩ := innerAligned
  obtain ⟨j, outerEq⟩ := outerAligned
  -- in blocks of the inner network, the outer one ends after a whole number of them
  have ends : outer.address + outer.size = inner.size * (ratio * j + ratio) := by
    rw [outerEq, ratioEq, mul_add, mul_assoc]
  rw [ends, innerEq] at before
  have next : i + 1 ≤ ratio * j + ratio := Nat.lt_of_mul_lt_mul_left before
  have whole : inner.address + inner.size ≤ outer.address + outer.size := by
    rw [ends, innerEq]
    exact mul_le_mul_left _ next
  exact ⟨starts.trans member.1, lt_of_lt_of_le member.2 whole⟩

theorem inSubnet_of_mem (family : inner.family = outer.family)
    (longer : outer.length ≤ inner.length) (inInner : inner.Mem x)
    (inOuter : outer.Mem x) : inner.InSubnet outer := by
  have innerAligned : inner.size ∣ inner.address := inner.masked
  have outerAligned : inner.size ∣ outer.address :=
    (size_dvd_size family longer).trans outer.masked
  obtain ⟨i, innerEq⟩ := innerAligned
  obtain ⟨j, outerEq⟩ := outerAligned
  have before : outer.address < inner.address + inner.size := lt_of_le_of_lt inOuter.1 inInner.2
  rw [outerEq, innerEq] at before
  have index : j ≤ i := Nat.lt_succ_iff.mp (Nat.lt_of_mul_lt_mul_left before)
  have starts : outer.address ≤ inner.address := by
    rw [outerEq, innerEq]
    exact mul_le_mul_left _ index
  exact ⟨family, starts, lt_of_le_of_lt inInner.1 inOuter.2⟩

theorem mem_address (net : Network) : net.Mem net.address :=
  ⟨le_rfl, Nat.lt_add_of_pos_right net.size_pos⟩

theorem length_le_of_subset (family : inner.family = outer.family)
    (part : ∀ x, inner.Mem x → outer.Mem x) : outer.length ≤ inner.length := by
  by_contra shorter
  have smaller : outer.size < inner.size := by
    rw [size, size, family]
    apply Nat.pow_lt_pow_right (by decide)
    have fits := outer.length_le
    omega
  have first := part _ inner.mem_address
  have last : inner.Mem (inner.address + inner.size - 1) := ⟨by omega, by omega⟩
  have inside := part _ last
  have ends := inside.2
  have starts := first.1
  omega

end Nested

/-! ### Binary notation -/

/-- The last `n` binary digits of a number, the highest first. -/
def digits : Nat → Nat → List Char
  | 0, _ => []
  | n + 1, value => digits n (value / 2) ++ [if value % 2 = 1 then '1' else '0']

def valueOf (chars : List Char) : Nat :=
  chars.foldl (fun value char => 2 * value + if char = '1' then 1 else 0) 0

theorem length_digits (n value : Nat) : (digits n value).length = n := by
  induction n generalizing value with
  | zero => rfl
  | succ n ih => simp [digits, ih]

theorem valueOf_digits (n value : Nat) : valueOf (digits n value) = value % 2 ^ n := by
  induction n generalizing value with
  | zero => simp [digits, valueOf, mod_one]
  | succ n ih =>
    have last : valueOf (digits (n + 1) value) =
        2 * valueOf (digits n (value / 2)) + value % 2 := by
      rcases mod_two_eq_zero_or_one value with even | odd
      · simp [digits, valueOf, even]
      · simp [digits, valueOf, odd]
    rw [last, ih, pow_succ', mod_mul, add_comm]

/-- The network of a family with the given value of its prefix bits. -/
def ofValue (family : Family) (len value : Nat) : Option Network :=
  if fits : len ≤ family.bitCount ∧ value < 2 ^ len then
    some {
      family := family
      address := value * 2 ^ (family.bitCount - len)
      length := len
      length_le := fits.1
      masked := dvd_mul_left _ _
      bounded := by
        have whole : 2 ^ family.bitCount = 2 ^ len * 2 ^ (family.bitCount - len) := by
          rw [← Nat.pow_add, Nat.add_sub_cancel' fits.1]
        rw [whole]
        exact Nat.mul_lt_mul_of_pos_right fits.2 (Nat.two_pow_pos _) }
  else none

def toBits (net : Network) : String :=
  String.ofList ((match net.family with | .V4 => '4' | .V6 => '6') ::
    digits net.length (net.address / net.size))

/-- The network that a binary notation denotes. -/
def ofBits (text : String) : Option Network :=
  match text.toList with
  | '4' :: bits => ofValue .V4 bits.length (valueOf bits)
  | '6' :: bits => ofValue .V6 bits.length (valueOf bits)
  | _ => none

theorem prefixBits_lt (net : Network) : net.address / net.size < 2 ^ net.length := by
  rw [Nat.div_lt_iff_lt_mul net.size_pos]
  refine net.bounded.trans_eq ?_
  rw [size, ← Nat.pow_add, Nat.add_sub_cancel' net.length_le]

theorem ofValue_eq (net : Network) :
    ofValue net.family net.length (net.address / net.size) = some net := by
  have exact : net.address / net.size * 2 ^ (net.family.bitCount - net.length) = net.address :=
    Nat.div_mul_cancel net.masked
  rw [ofValue, dif_pos ⟨net.length_le, net.prefixBits_lt⟩]
  exact congrArg some (Network.ext rfl exact rfl)

theorem ofBits_toBits (net : Network) : ofBits net.toBits = some net := by
  have small : net.address / net.size % 2 ^ net.length = net.address / net.size :=
    mod_eq_of_lt net.prefixBits_lt
  have whole := ofValue_eq net
  unfold ofBits toBits
  rw [String.toList_ofList]
  cases family : net.family with
  | V4 | V6 =>
    rw [family] at whole
    simp only [length_digits, valueOf_digits, small, whole]

end Network

end Cidr
