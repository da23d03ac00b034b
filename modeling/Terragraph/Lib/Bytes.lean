/-
Module: Terragraph.Lib.Bytes
Purpose: The bytes of a number, the carries of an addition, and the reversal of the byte order.
Trusted boundary: none
Main exports: byte, swap_add_iff
-/
import Mathlib

namespace Bytes

open List Nat

def byte (x i : Nat) : Nat := x / 256 ^ i % 256

theorem byte_lt (x i : Nat) : byte x i < 256 := mod_lt _ (by decide)

theorem byte_succ (x i : Nat) : byte x (i + 1) = byte (x / 256) i := by
  rw [byte, byte, Nat.pow_succ', Nat.div_div_eq_div_mul]

def bytes (n x : Nat) : List Nat := (range n).map (byte x)

variable (n x : Nat)

theorem bytes_succ : bytes (n + 1) x = x % 256 :: bytes n (x / 256) := by
  rw [bytes, range_succ_eq_map, map_cons, map_map]
  refine congrArg₂ _ (by simp [byte]) (map_congr_left fun i _ => byte_succ x i)

theorem ofDigits_bytes : ofDigits 256 (bytes n x) = x % 256 ^ n := by
  induction n generalizing x with
  | zero => simp [bytes, mod_one]
  | succ n ih => rw [bytes_succ, ofDigits_cons, ih, pow_succ', mod_mul]

theorem bytes_ofDigits {digits : List Nat} (small : ∀ digit ∈ digits, digit < 256) :
    bytes digits.length (ofDigits 256 digits) = digits := by
  induction digits with
  | nil => rfl
  | cons digit digits ih =>
    have first := small digit mem_cons_self
    have low : (digit + 256 * ofDigits 256 digits) % 256 = digit := by omega
    have high : (digit + 256 * ofDigits 256 digits) / 256 = ofDigits 256 digits := by
      omega
    rw [length_cons, bytes_succ, ofDigits_cons, low, high,
      ih fun other member => small other (mem_cons_of_mem _ member)]

theorem length_bytes : (bytes n x).length = n := by simp [bytes]

theorem lt_of_mem_bytes {n x digit : Nat} (member : digit ∈ bytes n x) : digit < 256 := by
  obtain ⟨i, _, rfl⟩ := mem_map.mp member
  exact byte_lt x i

theorem mod_eq_iff {n x y : Nat} : x % 256 ^ n = y % 256 ^ n ↔ ∀ i < n, byte x i = byte y i := by
  rw [← ofDigits_bytes, ← ofDigits_bytes]
  constructor
  · intro same i inside
    have back : ∀ z, bytes n (ofDigits 256 (bytes n z)) = bytes n z := by
      intro z
      have back := bytes_ofDigits fun _ => lt_of_mem_bytes (n := n) (x := z)
      rwa [length_bytes] at back
    have lists : bytes n x = bytes n y := by rw [← back x, same, back]
    exact map_inj_left.mp lists i (mem_range.mpr inside)
  · intro same
    exact congrArg _ (map_congr_left fun i inside => same i (mem_range.mp inside))

/-! ### Addition -/

def carry (x y : Nat) : Nat → Nat
  | 0 => 0
  | i + 1 => (byte x i + byte y i + carry x y i) / 256

theorem carry_le (x y i : Nat) : carry x y i ≤ 1 := by
  induction i with
  | zero => exact zero_le 1
  | succ i =>
    have left := byte_lt x i
    have right := byte_lt y i
    rw [carry]
    omega

theorem add_div_pow (x y i : Nat) :
    (x + y) / 256 ^ i = x / 256 ^ i + y / 256 ^ i + carry x y i := by
  induction i with
  | zero => simp [carry]
  | succ i ih =>
    rw [carry, byte, byte, Nat.pow_succ, ← Nat.div_div_eq_div_mul, ← Nat.div_div_eq_div_mul,
      ← Nat.div_div_eq_div_mul, ih]
    omega

theorem byte_add (x y i : Nat) : byte (x + y) i = (byte x i + byte y i + carry x y i) % 256 := by
  rw [byte, add_div_pow, byte, byte]
  omega

/-! ### The other byte order -/

def swap (n x : Nat) : Nat := ofDigits 256 (bytes n x).reverse

theorem byte_swap {n i : Nat} (x : Nat) (inside : i < n) :
    byte (swap n x) i = byte x (n - 1 - i) := by
  have small : ∀ digit ∈ (bytes n x).reverse, digit < 256 :=
    fun _ member => lt_of_mem_bytes (mem_reverse.mp member)
  have lists := bytes_ofDigits small
  have at_i := congrArg (fun digits => digits.getD i 0) lists
  simpa [bytes, swap, inside] using at_i

def NoCarry (n x y : Nat) : Prop := ∀ i < n, byte x i + byte y i < 256

theorem carry_eq_zero {n x y : Nat} (small : NoCarry n x y) : ∀ i ≤ n, carry x y i = 0
  | 0, _ => rfl
  | i + 1, inside => by
    rw [carry, carry_eq_zero small i (by omega)]
    exact div_eq_of_lt (small i inside)

theorem swap_mod : swap n (x % 256 ^ n) = swap n x := by
  have same : bytes n (x % 256 ^ n) = bytes n x :=
    map_congr_left fun i inside =>
      mod_eq_iff.mp (mod_mod x (256 ^ n)) i (mem_range.mp inside)
  rw [swap, same, swap]

theorem swap_lt : swap n x < 256 ^ n := by
  have bound := ofDigits_lt_base_pow_length (b := 256) (l := (bytes n x).reverse) (by decide)
    fun _ member => lt_of_mem_bytes (mem_reverse.mp member)
  rwa [length_reverse, length_bytes] at bound

theorem swap_swap : swap n (swap n x) = x % 256 ^ n := by
  have bound := mod_eq_of_lt (swap_lt n (swap n x))
  rw [← bound, mod_eq_iff]
  intro i inside
  rw [byte_swap _ inside, byte_swap _ (by omega)]
  exact congrArg _ (by omega)

/-- Adding a number of six bytes to one of eight in the wrong order gives the bytes of a sum with
the same six bytes if and only if there are no others and no byte overflows. -/
theorem swap_add_iff {c x y : Nat} (low : ∀ i < 6, byte y i = byte x i)
    (high : ∀ i < 8, 6 ≤ i → byte x i = 0) :
    swap 8 (c + swap 8 x) % 256 ^ 8 = (swap 8 c + y) % 256 ^ 8 ↔
      y % 256 ^ 8 = x % 256 ^ 8 ∧ NoCarry 8 (swap 8 c) x := by
  have mirrored : ∀ i < 8, byte (swap 8 (c + swap 8 x)) i =
      (byte (swap 8 c) i + byte x i + carry c (swap 8 x) (7 - i)) % 256 := by
    intro i inside
    rw [byte_swap _ inside, byte_add, byte_swap c inside, byte_swap x (by omega)]
    have back : 8 - 1 - (8 - 1 - i) = i := by omega
    rw [back]
  have back : ∀ i < 8, carry c (swap 8 x) (7 - i + 1) =
      (byte (swap 8 c) i + byte x i + carry c (swap 8 x) (7 - i)) / 256 := by
    intro i inside
    rw [carry, byte_swap x (by omega), byte_swap c inside]
    have back : 8 - 1 - (7 - i) = i := by omega
    rw [back]
  rw [mod_eq_iff]
  constructor
  · intro same
    have meet : ∀ i < 6, carry c (swap 8 x) (7 - i) = carry (swap 8 c) y i := by
      intro i inside
      have equal := same i (by omega)
      rw [mirrored i (by omega), byte_add, low i inside] at equal
      have small := carry_le c (swap 8 x) (7 - i)
      have smallToo := carry_le (swap 8 c) y i
      omega
    have turn : ∀ i < 6, carry (swap 8 c) y (i + 1) = carry c (swap 8 x) (7 - i + 1) := by
      intro i inside
      rw [back i (by omega), meet i inside, carry, low i inside]
    have skip : ∀ i < 5, carry (swap 8 c) y (i + 2) = carry (swap 8 c) y i := by
      intro i _
      rw [turn (i + 1) (by omega), ← meet i (by omega)]
      exact congrArg _ (by omega)
    -- the bytes added last of the wrong order are zero, and so are the carries out of them
    have quiet : ∀ i < 8, 6 ≤ i → carry c (swap 8 x) (7 - i) = 0 →
        carry c (swap 8 x) (7 - i + 1) = 0 := by
      intro i inside isHigh idle
      rw [back i inside, high i inside isHigh, idle]
      exact div_eq_of_lt (byte_lt _ _)
    have one : carry c (swap 8 x) 1 = 0 := quiet 7 (by decide) (by decide) rfl
    have two : carry c (swap 8 x) 2 = 0 := quiet 6 (by decide) (by decide) one
    have none : ∀ i < 7, carry (swap 8 c) y i = 0 := by
      have even : ∀ j < 3, carry (swap 8 c) y (2 * j + 2) = carry (swap 8 c) y (2 * j) :=
        fun j inside => skip (2 * j) (by omega)
      have fifth : carry (swap 8 c) y 5 = 0 := (meet 5 (by decide)).symm.trans two
      have third : carry (swap 8 c) y 3 = 0 := (skip 3 (by decide)).symm.trans fifth
      intro i _
      interval_cases i
      · rfl
      · exact (skip 1 (by decide)).symm.trans third
      · exact even 0 (by decide)
      · exact third
      · exact (even 1 (by decide)).trans (even 0 (by decide))
      · exact fifth
      · exact (even 2 (by decide)).trans ((even 1 (by decide)).trans (even 0 (by decide)))
    have clear : ∀ i < 8, 6 ≤ i → carry c (swap 8 x) (7 - i) = 0 → carry (swap 8 c) y i = 0 →
        byte y i = 0 := by
      intro i inside isHigh idle still
      have equal := same i inside
      rw [mirrored i inside, byte_add, high i inside isHigh, idle, still] at equal
      have added := byte_lt y i
      omega
    have sixth := clear 6 (by decide) (by decide) one (none 6 (by decide))
    have after : carry (swap 8 c) y 7 = 0 := by
      rw [carry, sixth, none 6 (by decide)]
      exact div_eq_of_lt (byte_lt _ _)
    have seventh := clear 7 (by decide) (by decide) rfl after
    constructor
    · rw [mod_eq_iff]
      intro i inside
      by_cases isLow : i < 6
      · exact low i isLow
      · rw [high i inside (by omega)]
        obtain rfl | rfl : i = 6 ∨ i = 7 := by omega
        · exact sixth
        · exact seventh
    · intro i inside
      by_cases isLow : i < 6
      · have out := none (i + 1) (by omega)
        rw [carry, none i (by omega), low i isLow] at out
        omega
      · rw [high i inside (by omega)]
        exact byte_lt _ _
  · rintro ⟨equal, small⟩
    have byBytes := mod_eq_iff.mp equal
    have none := carry_eq_zero (n := 8) (x := swap 8 c) (y := y) fun i inside => by
      rw [byBytes i inside]
      exact small i inside
    have mirror := carry_eq_zero (n := 8) (x := c) (y := swap 8 x) fun i inside => by
      have flipped := small (7 - i) (by omega)
      rwa [byte_swap c (by omega), (by omega : 8 - 1 - (7 - i) = i), ← byte_swap x inside] at flipped
    intro i inside
    rw [mirrored i inside, byte_add, none i (by omega), mirror _ (by omega), byBytes i inside]

end Bytes
