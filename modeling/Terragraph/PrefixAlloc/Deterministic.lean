/-
Module: Terragraph.PrefixAlloc.Deterministic
Purpose: How the prefix space is divided among the zones, when the search returns, and the class
  `DeterministicPrefixAllocator`.
Trusted boundary: human-reviewed embedding of `DeterministicPrefixAllocator.cpp`
Main exports: nextPowerOf2, prefix_space_search_returns_iff, deterministic
-/
import Terragraph.PrefixAlloc.Base
import Terragraph.PrefixAlloc.Reach

namespace Terragraph

open PrefixZone List Nat

/-! ### Powers of two -/

/-- The loop of `nextPowerOf2`, for at most the given number of rounds. -/
def doubleUntil (x : Nat) : Nat → Nat → Nat
  | 0, power => power
  | rounds + 1, power => if power < x then doubleUntil x rounds (power * 2) else power

/-- `nextPowerOf2`.  The loop ends after at most `x` rounds. -/
def nextPowerOf2 (x : Nat) : Nat := doubleUntil x x 1

/-- `isPowerOf2`. -/
def isPowerOf2 (x : Nat) : Bool := x ≠ 0 ∧ x &&& (x - 1) = 0

theorem doubleUntil_eq {x rounds exponent : Nat} (started : exponent ≤ clog 2 x)
    (enough : clog 2 x ≤ exponent + rounds) :
    doubleUntil x rounds (2 ^ exponent) = 2 ^ clog 2 x := by
  induction rounds generalizing exponent with
  | zero => rw [doubleUntil, le_antisymm started enough]
  | succ _ ih =>
    unfold doubleUntil
    split
    · next below =>
      have later := (lt_clog_iff_pow_lt one_lt_two).mpr below
      exact ih later (by omega)
    · next reached =>
      have ended := (clog_le_iff_le_pow one_lt_two).mpr (not_lt.mp reached)
      rw [le_antisymm started ended]

theorem nextPowerOf2_eq (x : Nat) : nextPowerOf2 x = 2 ^ clog 2 x := by
  have bound : clog 2 x ≤ 0 + x := by
    rw [zero_add]
    exact clog_le_of_le_pow x.lt_two_pow_self.le
  exact doubleUntil_eq (zero_le _) bound

theorem nextPowerOf2_pos (x : Nat) : 0 < nextPowerOf2 x := by
  rw [nextPowerOf2_eq]
  exact Nat.two_pow_pos _

theorem isPowerOf2_iff (x : Nat) : isPowerOf2 x = true ↔ ∃ exponent, x = 2 ^ exponent := by
  unfold isPowerOf2
  rw [decide_eq_true_iff]
  constructor
  · intro ⟨nonzero, noCommonBit⟩
    exact (and_sub_one_eq_zero_iff_isPowerOfTwo nonzero).mp noCommonBit
  · intro power
    have nonzero : x ≠ 0 := by
      obtain ⟨exponent, rfl⟩ := power
      exact (Nat.two_pow_pos exponent).ne'
    exact ⟨nonzero, (and_sub_one_eq_zero_iff_isPowerOfTwo nonzero).mpr power⟩

/-- `perZone`: the share of a zone, rounded down to a power of two. -/
def shareOf (prefixSpace numSegments : Nat) : Nat :=
  let perZone := prefixSpace / numSegments
  if isPowerOf2 perZone then perZone else nextPowerOf2 perZone >>> 1

variable {prefixSpace numSegments : Nat}

theorem shareOf_eq_zero (few : prefixSpace < numSegments) :
    shareOf prefixSpace numSegments = 0 := by
  unfold shareOf
  rw [div_eq_of_lt few]
  rfl

theorem shareOf_eq (segmented : 0 < numSegments) (many : numSegments ≤ prefixSpace) :
    shareOf prefixSpace numSegments = 2 ^ log 2 (prefixSpace / numSegments) := by
  have positive : 0 < prefixSpace / numSegments := div_pos many segmented
  unfold shareOf
  simp only
  split
  · next power =>
    obtain ⟨_, isPower⟩ := (isPowerOf2_iff _).mp power
    rw [isPower, log_pow one_lt_two]
  · next noPower =>
    have low := pow_log_le_self 2 positive.ne'
    have high := lt_pow_succ_log_self one_lt_two (prefixSpace / numSegments)
    have apart : 2 ^ log 2 (prefixSpace / numSegments) ≠ prefixSpace / numSegments := by
      intro same
      exact noPower ((isPowerOf2_iff _).mpr ⟨_, same.symm⟩)
    have rounded : clog 2 (prefixSpace / numSegments) = log 2 (prefixSpace / numSegments) + 1 := by
      apply le_antisymm
      · exact clog_le_of_le_pow high.le
      · exact (lt_clog_iff_pow_lt one_lt_two).mpr (lt_of_le_of_ne low apart)
    rw [nextPowerOf2_eq, rounded]
    exact Nat.mul_div_cancel _ Nat.two_pos

theorem shareOf_mul_le : numSegments * shareOf prefixSpace numSegments ≤ prefixSpace := by
  rcases lt_or_ge prefixSpace numSegments with few | many
  · rw [shareOf_eq_zero few]
    exact zero_le _
  · rcases Nat.eq_zero_or_pos numSegments with none | segmented
    · rw [none, zero_mul]
      exact zero_le _
    · have positive : 0 < prefixSpace / numSegments := div_pos many segmented
      rw [shareOf_eq segmented many]
      calc numSegments * 2 ^ log 2 (prefixSpace / numSegments)
          ≤ numSegments * (prefixSpace / numSegments) :=
            mul_le_mul_left _ (pow_log_le_self 2 positive.ne')
        _ ≤ prefixSpace := mul_div_le _ _

theorem shareOf_pos (segmented : 0 < numSegments) (many : numSegments ≤ prefixSpace) :
    0 < shareOf prefixSpace numSegments := by
  rw [shareOf_eq segmented many]
  exact Nat.two_pow_pos _

theorem shareOf_eq_one (many : numSegments ≤ prefixSpace) (last : prefixSpace < numSegments * 2) :
    shareOf prefixSpace numSegments = 1 := by
  have segmented : 0 < numSegments := by omega
  have one : prefixSpace / numSegments = 1 := Nat.div_eq_of_lt_le (by omega) (by omega)
  rw [shareOf_eq segmented many, one]
  rfl

/-! ### The search -/

/-- `PrefixZones`: the zones by POP site, in the order in which the map and its copies are
traversed. -/
abbrev PrefixZones := List (String × PrefixZone)

/-- `totRem`: the number of node prefixes that zones still need. -/
def totRem (zones : PrefixZones) : Nat :=
  (zones.map fun entry => entry.2.getRemaining.toNat).sum

/-- `numZones`: the number of zones that still need node prefixes. -/
def numZones (zones : PrefixZones) : Nat :=
  zones.countP fun entry => 0 < entry.2.getRemaining

/-- The inner loop: every zone in need (every zone, if none is) gets a share, as long as the space
lasts.  The result is the copy of the zones and `prefixSpaceRem`. -/
def distribute (perZone : Nat) (noneInNeed : Bool) : PrefixZones → Nat → PrefixZones × Nat
  | [], prefixSpaceRem => ([], prefixSpaceRem)
  | (name, zone) :: rest, prefixSpaceRem =>
    if 0 < zone.getRemaining ∨ noneInNeed = true then
      if perZone > prefixSpaceRem then ((name, zone) :: rest, prefixSpaceRem)
      else if prefixSpaceRem - perZone = 0 then
        ((name, zone.addToPrefixSpace perZone) :: rest, 0)
      else
        let later := distribute perZone noneInNeed rest (prefixSpaceRem - perZone)
        ((name, zone.addToPrefixSpace perZone) :: later.1, later.2)
    else
      let later := distribute perZone noneInNeed rest prefixSpaceRem
      ((name, zone) :: later.1, later.2)

def attempt (zones : PrefixZones) (prefixSpace numSegments : Nat) : PrefixZones × Nat :=
  distribute (shareOf prefixSpace numSegments) (totRem zones = 0) zones prefixSpace

/-- Enter the prefix spaces of a solution into the copy of the zones. -/
def takeSpaces (newZones zonesCopy : PrefixZones) : PrefixZones :=
  newZones.foldl (fun zones entry =>
    AssocList.upsert {} entry.1
      (·.setAllocatedPrefixSpaces entry.2.allocatedPrefixSpaces) zones) zonesCopy

/-- The `while (true)` loop: double the number of segments until the recursive call finds a
solution; `none` if the rounds are used up or a call does not return. -/
def divide (recurse : PrefixZones → Nat → Option (Option PrefixZones)) (zones : PrefixZones)
    (prefixSpace : Nat) : Nat → Nat → Option (Option PrefixZones)
  | 0, _ => none
  | rounds + 1, numSegments =>
    let next := attempt zones prefixSpace numSegments
    match recurse next.1 next.2 with
    | none => none
    | some (some newZones) => some (some (takeSpaces newZones next.1))
    | some none =>
      if numSegments * 2 > prefixSpace then some none
      else divide recurse zones prefixSpace rounds (numSegments * 2)

/-- `DeterministicPrefixAllocator::allocatePrefixSpacesHelper` for a bounded depth; `none` if it has
not returned by then.  The space left is never negative, and the loop has more rounds than
`numSegments` can be doubled. -/
def allocatePrefixSpacesHelper : Nat → PrefixZones → Nat → Option (Option PrefixZones)
  | 0, _, _ => none
  | depth + 1, zones, prefixSpace =>
    if zones.isEmpty then some none
    else if prefixSpace < totRem zones then some none
    else if prefixSpace = 0 then some (if totRem zones = 0 then some zones else none)
    else divide (allocatePrefixSpacesHelper depth) zones prefixSpace (prefixSpace + 1)
      (nextPowerOf2 (numZones zones))

/-! ### What a round does -/

@[simp] theorem totRem_cons (entry : String × PrefixZone) (rest : PrefixZones) :
    totRem (entry :: rest) = entry.2.getRemaining.toNat + totRem rest := by
  simp [totRem]

theorem numZones_le_totRem (zones : PrefixZones) : numZones zones ≤ totRem zones := by
  induction zones with
  | nil => exact zero_le _
  | cons entry _ ih =>
    unfold numZones at ih ⊢
    rw [countP_cons, totRem_cons]
    split
    · next inNeed =>
      have positive : 0 < entry.2.getRemaining := of_decide_eq_true inNeed
      omega
    · omega

def grant (perZone : Nat) (entry : String × PrefixZone) : String × PrefixZone :=
  if 0 < entry.2.getRemaining then (entry.1, entry.2.addToPrefixSpace perZone) else entry

variable {perZone : Nat} {zones : PrefixZones}

theorem map_grant_of_no_need (noNeed : numZones zones = 0) : zones.map (grant perZone) = zones := by
  have satisfied : ∀ entry ∈ zones, ¬ 0 < entry.2.getRemaining := by
    simpa [numZones, countP_eq_zero] using noNeed
  calc zones.map (grant perZone) = zones.map id :=
        map_congr_left fun entry member => if_neg (satisfied entry member)
    _ = zones := map_id zones

theorem distribute_in_need (positive : 0 < prefixSpace)
    (enough : numZones zones * perZone ≤ prefixSpace) :
    distribute perZone false zones prefixSpace =
      (zones.map (grant perZone), prefixSpace - numZones zones * perZone) := by
  induction zones generalizing prefixSpace with
  | nil => simp [distribute, numZones]
  | cons entry rest ih =>
    obtain ⟨name, zone⟩ := entry
    by_cases inNeed : 0 < zone.getRemaining
    · have count : numZones ((name, zone) :: rest) = numZones rest + 1 := by
        simp [numZones, inNeed]
      rw [count, succ_mul] at enough
      have affordable : ¬ perZone > prefixSpace := by omega
      rw [distribute, if_pos (.inl inNeed), if_neg affordable, count, succ_mul]
      have granted : grant perZone (name, zone) = (name, zone.addToPrefixSpace perZone) :=
        if_pos inNeed
      split
      · next spent =>
        -- the space is used up, so no later zone can be in need
        have noNeed : numZones rest = 0 := by
          rcases Nat.eq_zero_or_pos (numZones rest) with none | more
          · exact none
          · have share : perZone ≤ numZones rest * perZone := Nat.le_mul_of_pos_left _ more
            omega
        rw [map_cons, granted, map_grant_of_no_need noNeed, noNeed]
        simp only [zero_mul, zero_add, spent]
      · next left =>
        rw [ih (Nat.pos_of_ne_zero left) (by omega), map_cons, granted]
        simp only [Nat.sub_sub, Nat.add_comm]
    · have count : numZones ((name, zone) :: rest) = numZones rest := by
        simp [numZones, inNeed]
      have kept : grant perZone (name, zone) = (name, zone) := if_neg inNeed
      have skipped : ¬ (0 < zone.getRemaining ∨ false = true) := by simp [inNeed]
      rw [count] at enough
      rw [distribute, if_neg skipped, ih positive enough, map_cons, kept, count]

theorem distribute_ne_nil {all : Bool} (nonempty : zones ≠ []) :
    (distribute perZone all zones prefixSpace).1 ≠ [] := by
  cases zones with
  | nil => exact absurd rfl nonempty
  | cons =>
    unfold distribute
    split
    · split
      · simp
      · split <;> simp
    · simp

theorem totRem_distribute_le (perZone prefixSpace : Nat) (all : Bool) (zones : PrefixZones) :
    totRem (distribute perZone all zones prefixSpace).1 ≤ totRem zones := by
  have less : ∀ zone : PrefixZone,
      (zone.addToPrefixSpace perZone).getRemaining.toNat ≤ zone.getRemaining.toNat := by
    intro zone
    rw [getRemaining_addToPrefixSpace]
    omega
  induction zones generalizing prefixSpace with
  | nil => exact le_rfl
  | cons entry _ ih =>
    obtain ⟨_, zone⟩ := entry
    have zoneLess := less zone
    unfold distribute
    split
    · split
      · exact le_rfl
      · split
        · simp only [totRem_cons]
          omega
        · have restLess := ih (prefixSpace - perZone)
          simp only [totRem_cons]
          omega
    · have restLess := ih prefixSpace
      simp only [totRem_cons]
      omega

theorem distribute_lt {all : Bool} (something : 0 < perZone) (affordable : perZone ≤ prefixSpace)
    (taker : ∃ entry ∈ zones, 0 < entry.2.getRemaining ∨ all = true) :
    (distribute perZone all zones prefixSpace).2 < prefixSpace := by
  have atMost : ∀ (zones : PrefixZones) (space : Nat),
      (distribute perZone all zones space).2 ≤ space := by
    intro zones
    induction zones with
    | nil => exact fun _ => le_rfl
    | cons _ _ ih =>
      intro space
      unfold distribute
      split
      · split
        · exact le_rfl
        · split
          · exact zero_le _
          · exact (ih _).trans (sub_le _ _)
      · exact ih space
  induction zones with
  | nil => simp at taker
  | cons _ rest ih =>
    unfold distribute
    split
    · rw [if_neg (not_lt.mpr affordable)]
      split
      · omega
      · have later := atMost rest (prefixSpace - perZone)
        simp only
        omega
    · next skipped =>
      obtain ⟨other, member, takes⟩ := taker
      rcases mem_cons.mp member with here | later
      · rw [here] at takes
        exact absurd takes skipped
      · exact ih ⟨other, later, takes⟩

section Shares

theorem exists_in_need (needed : totRem zones ≠ 0) : ∃ entry ∈ zones, 0 < entry.2.getRemaining := by
  by_contra noneInNeed
  apply needed
  apply sum_eq_zero
  intro _ member
  obtain ⟨entry, inZones, rfl⟩ := mem_map.mp member
  have satisfied : ¬ 0 < entry.2.getRemaining := fun inNeed => noneInNeed ⟨entry, inZones, inNeed⟩
  omega

theorem totRem_grant_zero (zones : PrefixZones) : totRem (zones.map (grant 0)) = totRem zones ∧
      numZones (zones.map (grant 0)) = numZones zones := by
  have same : ∀ entry, (grant 0 entry).2.getRemaining = entry.2.getRemaining := by
    intro entry
    unfold grant
    split
    · rw [getRemaining_addToPrefixSpace]
      omega
    · rfl
  constructor
  · unfold totRem
    rw [map_map]
    exact congrArg sum (map_congr_left fun entry _ => congrArg Int.toNat (same entry))
  · unfold numZones
    rw [countP_map]
    exact countP_congr fun entry _ => by simp [same entry]

theorem totRem_grant_one (zones : PrefixZones) :
    totRem (zones.map (grant 1)) + numZones zones = totRem zones := by
  induction zones with
  | nil => rfl
  | cons entry rest =>
    by_cases inNeed : 0 < entry.2.getRemaining
    · have count : numZones (entry :: rest) = numZones rest + 1 := by
        simp [numZones, inNeed]
      have granted : grant 1 entry = (entry.1, entry.2.addToPrefixSpace 1) := if_pos inNeed
      rw [map_cons, totRem_cons, totRem_cons, granted, getRemaining_addToPrefixSpace]
      omega
    · have count : numZones (entry :: rest) = numZones rest := by
        simp [numZones, inNeed]
      have kept : grant 1 entry = entry := if_neg inNeed
      rw [map_cons, totRem_cons, totRem_cons, kept]
      omega

theorem attempt_starved (needed : totRem zones ≠ 0) (positive : 0 < prefixSpace)
    (few : prefixSpace < numSegments) :
    attempt zones prefixSpace numSegments = (zones.map (grant 0), prefixSpace) := by
  unfold attempt
  rw [shareOf_eq_zero few, decide_eq_false needed, distribute_in_need positive (by omega)]
  rfl

theorem attempt_fits (positive : 0 < prefixSpace) (fits : totRem zones ≤ prefixSpace)
    (last : prefixSpace < numSegments * 2) :
    totRem (attempt zones prefixSpace numSegments).1 ≤
      (attempt zones prefixSpace numSegments).2 := by
  by_cases needed : totRem zones = 0
  · have less := totRem_distribute_le (shareOf prefixSpace numSegments) prefixSpace
      (totRem zones = 0) zones
    unfold attempt
    omega
  · rcases lt_or_ge prefixSpace numSegments with few | many
    · rw [attempt_starved needed positive few]
      simpa only [(totRem_grant_zero zones).1] using fits
    · have atMost := numZones_le_totRem zones
      have single := totRem_grant_one zones
      unfold attempt
      rw [shareOf_eq_one many last, decide_eq_false needed, distribute_in_need positive (by omega)]
      simp only
      omega

theorem attempt_lt (nonempty : zones ≠ []) (segmented : 0 < numSegments)
    (many : numSegments ≤ prefixSpace) :
    (attempt zones prefixSpace numSegments).2 < prefixSpace := by
  have something := shareOf_pos segmented many
  have affordable : shareOf prefixSpace numSegments ≤ prefixSpace :=
    (Nat.le_mul_of_pos_left _ segmented).trans shareOf_mul_le
  apply distribute_lt something affordable
  by_cases needed : totRem zones = 0
  · obtain ⟨entry, member⟩ := exists_mem_of_ne_nil zones nonempty
    exact ⟨entry, member, .inr (decide_eq_true needed)⟩
  · obtain ⟨entry, member, inNeed⟩ := exists_in_need needed
    exact ⟨entry, member, .inl inNeed⟩

end Shares

/-! ### The calls of the search -/

/-- The number of segments of the `i`-th round of a call. -/
def segmentsOf (zones : PrefixZones) (i : Nat) : Nat := nextPowerOf2 (numZones zones) * 2 ^ i

/-- The call makes an `i`-th round: the earlier ones have left less space than is still needed. -/
structure Makes (zones : PrefixZones) (prefixSpace i : Nat) : Prop where
  nonempty : zones ≠ []
  positive : 0 < prefixSpace
  fits : totRem zones ≤ prefixSpace
  tried : i = 0 ∨ segmentsOf zones i ≤ prefixSpace
  failed : ∀ j < i, (attempt zones prefixSpace (segmentsOf zones j)).2 <
    totRem (attempt zones prefixSpace (segmentsOf zones j)).1

/-- The recursive calls that a call makes, directly or through others. -/
inductive Calls (zones : PrefixZones) (prefixSpace : Nat) : PrefixZones → Nat → Prop where
  | self : Calls zones prefixSpace zones prefixSpace
  | recurse {zones' : PrefixZones} {prefixSpace' i : Nat}
      (outer : Calls zones prefixSpace zones' prefixSpace') (made : Makes zones' prefixSpace' i) :
      Calls zones prefixSpace (attempt zones' prefixSpace' (segmentsOf zones' i)).1
        (attempt zones' prefixSpace' (segmentsOf zones' i)).2

/-- A call with enough space for every zone in need, but less than its number of segments. -/
def Starved (zones : PrefixZones) (prefixSpace : Nat) : Prop :=
  0 < prefixSpace ∧ totRem zones ≤ prefixSpace ∧ prefixSpace < nextPowerOf2 (numZones zones)

theorem Calls.trans {zones zones' zones'' : PrefixZones} {space space' space'' : Nat}
    (first : Calls zones space zones' space') (second : Calls zones' space' zones'' space'') :
    Calls zones space zones'' space'' := by
  induction second with
  | self => exact first
  | recurse _ made ih => exact .recurse ih made

theorem segmentsOf_succ (zones : PrefixZones) (i : Nat) :
    segmentsOf zones (i + 1) = segmentsOf zones i * 2 := by
  unfold segmentsOf
  rw [pow_succ, mul_assoc]

theorem segmentsOf_mono (zones : PrefixZones) {i j : Nat} (le : i ≤ j) :
    segmentsOf zones i ≤ segmentsOf zones j :=
  Nat.mul_le_mul_left _ (Nat.pow_le_pow_right Nat.two_pos le)

theorem lt_segmentsOf (zones : PrefixZones) (i : Nat) : i < segmentsOf zones i :=
  calc i < 2 ^ i := i.lt_two_pow_self
    _ ≤ segmentsOf zones i := Nat.le_mul_of_pos_left _ (nextPowerOf2_pos _)

/-! ### Unfolding a call -/

section Unfold

variable {depth : Nat}

theorem helper_short (short : prefixSpace < totRem zones) :
    allocatePrefixSpacesHelper (depth + 1) zones prefixSpace = some none := by
  rw [allocatePrefixSpacesHelper, if_pos short, ite_self]

theorem helper_done (nonempty : zones ≠ []) (noNeed : totRem zones = 0) :
    allocatePrefixSpacesHelper (depth + 1) zones 0 = some (some zones) := by
  rw [allocatePrefixSpacesHelper, noNeed]
  simp [nonempty]

theorem helper_eq_divide (nonempty : zones ≠ []) (positive : 0 < prefixSpace)
    (fits : totRem zones ≤ prefixSpace) :
    allocatePrefixSpacesHelper (depth + 1) zones prefixSpace =
      divide (allocatePrefixSpacesHelper depth) zones prefixSpace (prefixSpace + 1)
        (segmentsOf zones 0) := by
  have isNonempty : ¬ zones.isEmpty = true := by simp [nonempty]
  rw [allocatePrefixSpacesHelper, if_neg isNonempty, if_neg (not_lt.mpr fits), if_neg positive.ne']
  simp [segmentsOf]

theorem divide_skip {recurse : PrefixZones → Nat → Option (Option PrefixZones)} {rounds i : Nat}
    (tried : i = 0 ∨ segmentsOf zones i ≤ prefixSpace)
    (failed : ∀ j < i, recurse (attempt zones prefixSpace (segmentsOf zones j)).1
      (attempt zones prefixSpace (segmentsOf zones j)).2 = some none) :
    divide recurse zones prefixSpace (rounds + i) (segmentsOf zones 0) =
      divide recurse zones prefixSpace rounds (segmentsOf zones i) := by
  induction i generalizing rounds with
  | zero => rfl
  | succ i ih =>
    have within : segmentsOf zones (i + 1) ≤ prefixSpace := tried.resolve_left (by omega)
    have before : segmentsOf zones i ≤ prefixSpace :=
      (segmentsOf_mono zones (le_succ i)).trans within
    have goesOn : ¬ segmentsOf zones i * 2 > prefixSpace := by
      rw [← segmentsOf_succ]
      exact not_lt.mpr within
    rw [show rounds + (i + 1) = rounds + 1 + i by omega,
      ih (.inr before) fun j _ => failed j (by omega), divide]
    simp only [failed i (lt_succ_self i), if_neg goesOn, segmentsOf_succ]

/-- A call is decided by its first round that leaves enough space. -/
theorem helper_of_makes {depth i : Nat} (made : Makes zones prefixSpace i) :
    allocatePrefixSpacesHelper (depth + 2) zones prefixSpace =
      divide (allocatePrefixSpacesHelper (depth + 1)) zones prefixSpace (prefixSpace - i + 1)
        (segmentsOf zones i) := by
  have rounds : i ≤ prefixSpace := by
    rcases made.tried with _ | within
    · omega
    · exact ((lt_segmentsOf zones i).trans_le within).le
  rw [helper_eq_divide made.nonempty made.positive made.fits,
    show prefixSpace + 1 = prefixSpace - i + 1 + i by omega, divide_skip made.tried]
  exact fun j earlier => helper_short (made.failed j earlier)

theorem helper_finds {result : Option PrefixZones} (nonempty : zones ≠ [])
    (fits : totRem zones ≤ prefixSpace)
    (returned : allocatePrefixSpacesHelper depth zones prefixSpace = some result) :
    result ≠ none := by
  induction depth generalizing zones prefixSpace result with
  | zero => cases returned
  | succ _ ih =>
    rcases Nat.eq_zero_or_pos prefixSpace with zero | positive
    · subst zero
      rw [helper_done nonempty (le_zero.mp fits)] at returned
      cases returned
      simp
    · rw [helper_eq_divide nonempty positive fits] at returned
      -- the loop cannot end without a solution: its last round leaves enough space
      generalize prefixSpace + 1 = rounds, segmentsOf zones 0 = numSegments at returned
      induction rounds generalizing numSegments with
      | zero => cases returned
      | succ _ roundHypothesis =>
        rw [divide] at returned
        split at returned
        · cases returned
        · cases returned
          simp
        · next nothing =>
          split at returned
          · next last =>
            have found := ih (distribute_ne_nil nonempty) (attempt_fits positive fits last) nothing
            exact absurd rfl found
          · exact roundHypothesis _ returned

end Unfold

/-! ### When the search returns -/

theorem not_starved_of_no_need (noNeed : totRem zones = 0) : ¬ Starved zones prefixSpace := by
  intro ⟨positive, _, few⟩
  have noZones : numZones zones = 0 := by
    have atMost := numZones_le_totRem zones
    omega
  rw [noZones] at few
  exact absurd few (not_lt.mpr positive)

theorem starved_never_returns (starved : Starved zones prefixSpace) (depth : Nat) :
    allocatePrefixSpacesHelper depth zones prefixSpace = none := by
  induction depth generalizing zones with
  | zero => rfl
  | succ _ ih =>
    obtain ⟨positive, fits, few⟩ := starved
    have needed : totRem zones ≠ 0 :=
      fun noNeed => not_starved_of_no_need noNeed ⟨positive, fits, few⟩
    have nonempty : zones ≠ [] := by
      intro empty
      exact needed (by rw [empty]; rfl)
    obtain ⟨sameNeed, sameCount⟩ := totRem_grant_zero zones
    have again : Starved (zones.map (grant 0)) prefixSpace := by
      unfold Starved
      rw [sameNeed, sameCount]
      exact ⟨positive, fits, few⟩
    have start : segmentsOf zones 0 = nextPowerOf2 (numZones zones) := mul_one _
    rw [helper_eq_divide nonempty positive fits, divide, start, attempt_starved needed positive few]
    simp only [ih again]

theorem never_returns_of_makes {prefixSpace i : Nat} (made : Makes zones prefixSpace i)
    (never : ∀ depth, allocatePrefixSpacesHelper depth
      (attempt zones prefixSpace (segmentsOf zones i)).1
      (attempt zones prefixSpace (segmentsOf zones i)).2 = none) (depth : Nat) :
    allocatePrefixSpacesHelper depth zones prefixSpace = none := by
  match depth with
  | 0 => rfl
  | 1 =>
    rw [helper_eq_divide made.nonempty made.positive made.fits]
    rfl
  | depth + 2 =>
    rw [helper_of_makes made, divide]
    simp only [never (depth + 1)]

theorem exists_makes (nonempty : zones ≠ []) (positive : 0 < prefixSpace)
    (fits : totRem zones ≤ prefixSpace) (many : nextPowerOf2 (numZones zones) ≤ prefixSpace) :
    ∃ i, Makes zones prefixSpace i ∧ segmentsOf zones i ≤ prefixSpace ∧
      totRem (attempt zones prefixSpace (segmentsOf zones i)).1 ≤
        (attempt zones prefixSpace (segmentsOf zones i)).2 := by
  have first : segmentsOf zones 0 ≤ prefixSpace := by
    simpa [segmentsOf] using many
  -- the largest number of segments within the space
  obtain ⟨last, within, beyond⟩ : ∃ last, segmentsOf zones last ≤ prefixSpace ∧
      prefixSpace < segmentsOf zones (last + 1) := by
    have bounded : ∃ i, prefixSpace < segmentsOf zones (i + 1) :=
      ⟨prefixSpace, (lt_succ_self _).trans (lt_segmentsOf zones _)⟩
    refine ⟨Nat.find bounded, ?_, Nat.find_spec bounded⟩
    rcases Nat.eq_zero_or_pos (Nat.find bounded) with zero | later
    · rw [zero]
      exact first
    · have earlier := Nat.find_min bounded (Nat.sub_lt later Nat.one_pos)
      rw [Nat.sub_add_cancel later] at earlier
      exact not_lt.mp earlier
  rw [segmentsOf_succ] at beyond
  have enough : ∃ i, totRem (attempt zones prefixSpace (segmentsOf zones i)).1 ≤
      (attempt zones prefixSpace (segmentsOf zones i)).2 :=
    ⟨last, attempt_fits positive fits beyond⟩
  have before : Nat.find enough ≤ last := Nat.find_min' enough (attempt_fits positive fits beyond)
  have tried := (segmentsOf_mono zones before).trans within
  refine ⟨Nat.find enough, ⟨nonempty, positive, fits, .inr tried, ?_⟩, tried,
    Nat.find_spec enough⟩
  exact fun j earlier => not_le.mp (Nat.find_min enough earlier)

/-- Without a starved call every round hands out something, so the space bounds the depth. -/
theorem returns_of_not_starved
    (fed : ∀ zones' prefixSpace', Calls zones prefixSpace zones' prefixSpace' →
      ¬ Starved zones' prefixSpace') {depth : Nat} (deep : prefixSpace + 2 ≤ depth) :
    (allocatePrefixSpacesHelper depth zones prefixSpace).isSome := by
  induction prefixSpace using Nat.strong_induction_on generalizing zones depth with
  | _ prefixSpace ih =>
    obtain ⟨depth, rfl⟩ := Nat.exists_eq_add_of_le' deep
    by_cases empty : zones = []
    · subst empty
      simp [allocatePrefixSpacesHelper]
    by_cases short : prefixSpace < totRem zones
    · rw [show depth + (prefixSpace + 2) = depth + prefixSpace + 1 + 1 by omega,
        helper_short short]
      rfl
    have fits := not_lt.mp short
    rcases Nat.eq_zero_or_pos prefixSpace with zero | positive
    · subst zero
      rw [helper_done empty (le_zero.mp fits)]
      rfl
    have many : nextPowerOf2 (numZones zones) ≤ prefixSpace := by
      by_contra few
      exact fed zones prefixSpace .self ⟨positive, fits, not_le.mp few⟩
    obtain ⟨i, made, tried, enough⟩ := exists_makes empty positive fits many
    have less := attempt_lt empty (Nat.zero_lt_of_lt (lt_segmentsOf zones i)) tried
    have returned : (allocatePrefixSpacesHelper (depth + prefixSpace + 1)
        (attempt zones prefixSpace (segmentsOf zones i)).1
        (attempt zones prefixSpace (segmentsOf zones i)).2).isSome :=
      ih _ less (fun zones' space' inner => fed zones' space' (.trans (.recurse .self made) inner))
        (by omega)
    obtain ⟨_, found⟩ := Option.isSome_iff_exists.mp returned
    have isFound := helper_finds (distribute_ne_nil empty) enough found
    obtain ⟨_, rfl⟩ := Option.ne_none_iff_exists'.mp isFound
    rw [show depth + (prefixSpace + 2) = depth + prefixSpace + 2 by omega, helper_of_makes made,
      divide]
    simp only [found]
    rfl

/-- The search returns exactly when it makes no starved call, within the depth of the space. -/
theorem prefix_space_search_returns_iff (zones : PrefixZones) (prefixSpace : Nat) :
    ((∃ depth, (allocatePrefixSpacesHelper depth zones prefixSpace).isSome) ↔
      ∀ zones' prefixSpace', Calls zones prefixSpace zones' prefixSpace' →
        ¬ Starved zones' prefixSpace') ∧
    ((∃ depth, (allocatePrefixSpacesHelper depth zones prefixSpace).isSome) →
      (allocatePrefixSpacesHelper (prefixSpace + 2) zones prefixSpace).isSome) := by
  have returning : (∃ depth, (allocatePrefixSpacesHelper depth zones prefixSpace).isSome) ↔
      ∀ zones' prefixSpace', Calls zones prefixSpace zones' prefixSpace' →
        ¬ Starved zones' prefixSpace' := by
    constructor
    · intro ⟨depth, returned⟩ _ _ called starved
      -- the call that is starved never returns, and neither does any call that waits for it
      have never : ∀ depth, allocatePrefixSpacesHelper depth zones prefixSpace = none := by
        have inner := starved_never_returns starved
        clear starved
        induction called with
        | self => exact inner
        | recurse _ made ih =>
          exact ih (never_returns_of_makes made inner)
      rw [never depth] at returned
      cases returned
    · intro fed
      exact ⟨prefixSpace + 2, returns_of_not_starved fed le_rfl⟩
  exact ⟨returning, fun returned => returns_of_not_starved (returning.mp returned) le_rfl⟩

/-- Five zones that need eight prefixes together. -/
def fiveZones : PrefixZones :=
  [("A", { allocationSizeOverride := 2 }), ("B", { allocationSizeOverride := 2 }),
    ("C", { allocationSizeOverride := 2 }), ("D", { allocationSizeOverride := 1 }),
    ("E", { allocationSizeOverride := 1 })]

/-- Eight prefixes for five zones: the first round leaves three prefixes for three zones.  Three
zones make four segments, their share is rounded down to nothing, and the same call is made again.
-/
theorem prefix_space_search_never_returns :
    (∀ entry ∈ fiveZones, 0 < entry.2.getRemaining) ∧ totRem fiveZones = 2 ^ 3 ∧
      ∀ depth, allocatePrefixSpacesHelper depth fiveZones (2 ^ 3) = none := by
  refine ⟨by decide, by decide, ?_⟩
  have made : Makes fiveZones (2 ^ 3) 0 :=
    ⟨by simp [fiveZones], by decide, by decide, .inl rfl, by simp⟩
  have starved : Starved (attempt fiveZones (2 ^ 3) (segmentsOf fiveZones 0)).1
      (attempt fiveZones (2 ^ 3) (segmentsOf fiveZones 0)).2 := by
    unfold Starved
    decide
  exact never_returns_of_makes made (starved_never_returns starved)

open TopologyWrapper AssocList Function

/-- The members of `DeterministicPrefixAllocator`. -/
structure Deterministic where
  zones : PrefixZones := []
  node2Zone : String → Option String := fun _ => none

/-- A member function of `DeterministicPrefixAllocator`. -/
abbrev DpaM := AllocM Deterministic

namespace Deterministic

/-- `zones_[zoneName]`, as it is read. -/
def zone (dpa : Deterministic) (zoneName : String) : PrefixZone :=
  (find zoneName dpa.zones).getD {}

/-- Write through `zones_[zoneName]`, which enters an empty zone if there is none. -/
def modifyZone (zoneName : String) (f : PrefixZone → PrefixZone) : DpaM Unit :=
  modifyAllocator fun dpa => { dpa with zones := upsert {} zoneName f dpa.zones }

/-- `node2Zone_[nodeName] = zoneName`, or the erasure of the entry. -/
def setNode2Zone (nodeName : String) (zoneName : Option String) : DpaM Unit :=
  modifyAllocator fun dpa =>
    { dpa with node2Zone := update dpa.node2Zone nodeName zoneName }

end Deterministic

open Deterministic

/-! ### Zones -/

def groupZones (batch : List (String × Nat × String)) : PrefixZones :=
  batch.foldl (fun zones entry => upsert {} entry.2.2 (·.addNode entry.1) zones) []

/-- `node2Zone_` for these nodes. -/
def groupNodes (batch : List (String × Nat × String)) : String → Option String :=
  batch.foldl (fun node2Zone entry => update node2Zone entry.1 (some entry.2.2))
    fun _ => none

def arrange (order : SetOrder) (zones : PrefixZones) : PrefixZones :=
  (order.toList (keys zones).toFinset).filterMap fun name =>
    (find name zones).map fun zone => (name, zone)

/-- The zones after `allocate` has grouped the nodes and made room for more of them. -/
def rebuiltZones (order : SetOrder) (buffer : Nat) (w : TopologyWrapper) : PrefixZones :=
  (arrange order (groupZones (batchNodesToPopSites order w))).map fun entry =>
    (entry.1, entry.2.setAllocationSizeOverride (entry.2.size + buffer))

/-! ### Zone prefixes -/

/-- `DeterministicPrefixAllocator::allocateZonePrefixesHelper`, with the map it updates. -/
def allocateZonePrefixesHelper : Nat → Nat → Nat → Nat → (Nat → Option Nat) →
    Option Nat × (Nat → Option Nat)
  | 0, _, _, _, allocated => (none, allocated)
  | levels + 1, networkPrefixLength, networkPrefixOffset, prefixLength, allocated =>
    if networkPrefixLength > prefixLength then (none, allocated)
    else if (allocated networkPrefixOffset).any (· ≤ networkPrefixLength) then (none, allocated)
    else if networkPrefixLength = prefixLength then
      (some networkPrefixOffset,
        update allocated networkPrefixOffset (some networkPrefixLength))
    else
      match allocateZonePrefixesHelper levels (networkPrefixLength + 1)
          (networkPrefixOffset <<< 1) prefixLength allocated with
      | (some leftValue, allocated) => (some leftValue, allocated)
      | (none, allocated) =>
        allocateZonePrefixesHelper levels (networkPrefixLength + 1)
          (networkPrefixOffset <<< 1 + 1) prefixLength allocated

section Allocate

variable (net : NetworkUtils) (params : PrefixAllocParams) (order : SetOrder)

/-- `networkPrefixSpace`. -/
def networkPrefixSpace : Nat := networkToPrefixSpace params.seedPrefix params.allocPrefixLen

def prefixLengthOf (space : Nat) : Nat :=
  params.seedPrefix.length + Nat.log2 (networkPrefixSpace params / space)

/-- The keys of `prefixLengthsToZoneName`. -/
def prefixLengths (zones : PrefixZones) : Finset Nat :=
  zones.foldr (fun entry lengths =>
    entry.2.allocatedPrefixSpaces.image (prefixLengthOf params) ∪ lengths) ∅

/-- `prefixLengthsToZoneName[prefixLength]`. -/
def zonesOfLength (zones : PrefixZones) (prefixLength : Nat) : Finset String :=
  ((zones.filter fun entry =>
    prefixLength ∈ entry.2.allocatedPrefixSpaces.image (prefixLengthOf params)).map Prod.fst).toFinset

/-- The zone prefixes to allocate, as pairs of a length and a zone, in the order of the loops. -/
def zoneRequests (zones : PrefixZones) : List (Nat × String) :=
  (Ascending.listing (prefixLengths params zones)).flatMap fun prefixLength =>
    (order.toList (zonesOfLength params zones prefixLength)).map fun zoneName =>
      (prefixLength, zoneName)

/-- The loops of `allocateZonePrefixes` over the zones that need a prefix of each length. -/
def placeZonePrefixes : List (Nat × String) → (Nat → Option Nat) → DpaM Unit
  | [], _ => return ()
  | (prefixLength, zoneName) :: rest, allocatedZonePrefixes => do
    let found := allocateZonePrefixesHelper (prefixLength + 1 - params.seedPrefix.length)
      params.seedPrefix.length 0 prefixLength allocatedZonePrefixes
    match found.1 with
    | none =>
      throwInvalidArgument ("Unable to find an available networkPrefixOffset " ++
        "for prefixLength " ++ toString prefixLength)
    | some networkPrefixOffset => do
      let zonePrefix ← getNthPrefix net params.seedPrefix prefixLength networkPrefixOffset
      modifyZone zoneName (·.addZonePrefix zonePrefix)
      placeZonePrefixes rest found.2

/-- `PrefixZone::getZonePrefixStrings`. -/
def PrefixZone.getZonePrefixStrings (zone : PrefixZone) : Finset String :=
  zone.allocatedZonePrefixes.image net.networkToString

/-- The zones as `setTopologyZones` reformats them. -/
def thriftZones (zones : PrefixZones) (zoneName : String) : Option Zone :=
  (find zoneName zones).map fun zone =>
    { nodeNames := zone.nodes, zonePrefixes := PrefixZone.getZonePrefixStrings net zone }

/-- `DeterministicPrefixAllocator::setTopologyZones`. -/
def setTopologyZones : DpaM Unit := do
  let s ← get
  onTopology (setPrefixZones (thriftZones net s.allocator.zones))

/-- `DeterministicPrefixAllocator::allocatePrefixSpaces`; a search that returns is no deeper. -/
def allocatePrefixSpaces (space : Nat) : DpaM Unit := do
  modifyAllocator fun dpa =>
    { dpa with zones := dpa.zones.map fun entry => (entry.1, entry.2.clearPrefixSpaces) }
  let s ← get
  match allocatePrefixSpacesHelper (space + 2) s.allocator.zones space with
  | none => throw .neverReturns
  | some none => return ()
  | some (some zones) => modifyAllocator fun dpa => { dpa with zones := zones }

/-- `DeterministicPrefixAllocator::allocateZonePrefixes`. -/
def allocateZonePrefixes : DpaM Unit := do
  allocatePrefixSpaces (networkPrefixSpace params)
  let s ← get
  if s.allocator.zones.isEmpty then
    return ()
  placeZonePrefixes net params (zoneRequests params order s.allocator.zones) fun _ => none
  setTopologyZones net

/-! ### Node prefixes -/

/-- The loop of `getNextUnallocatedPrefix` over the sorted zone prefixes. -/
def scanZonePrefixes (allocated : CIDRNetwork → Option String) :
    List CIDRNetwork → DpaM (Option CIDRNetwork)
  | [] => return none
  | zonePrefix :: rest => do
    match ← firstUnallocated net allocated zonePrefix params.allocPrefixLen
        (networkToPrefixSpace zonePrefix params.allocPrefixLen) 0 with
    | some newPrefix => return some newPrefix
    | none => scanZonePrefixes allocated rest

/-- `DeterministicPrefixAllocator::getNextUnallocatedPrefix`. -/
def getNextUnallocatedPrefix (zone : PrefixZone) : DpaM (Option CIDRNetwork) :=
  scanZonePrefixes net params zone.allocatedNodePrefixes
    (Ascending.listing zone.allocatedZonePrefixes)

/-- The body of the loops of `allocateNodePrefixes`. -/
def assignNextPrefix (zoneName nodeName : String) : DpaM Unit := do
  let s ← get
  match ← getNextUnallocatedPrefix net params (s.allocator.zone zoneName) with
  | none => throwInvalidArgument ("No available prefixes to assign to " ++ nodeName)
  | some newPrefix => do
    modifyZone zoneName (·.assignNodePrefix nodeName newPrefix)
    onTopology (setNodePrefix nodeName (some (net.networkToString newPrefix)))

/-- `DeterministicPrefixAllocator::allocateNodePrefixes`. -/
def allocateNodePrefixes : DpaM Unit := do
  let s ← get
  forM s.allocator.zones fun entry =>
    forM (order.toList entry.2.nodes) (assignNextPrefix net params entry.1)

/-! ### Reallocation -/

/-- The loop body of `writeToConfig`, which reads the seed prefix of the parameters. -/
def writeZonePrefixes (seedPrefix : CIDRNetwork) (node : Node) : DpaM Unit := do
  if node.popNode = false then
    modifyConfig (setAutoNodeSpecificNetworkPrefixes node.name none)
  else
    let s ← get
    match s.allocator.node2Zone node.name with
    | none => return ()
    | some zoneName => do
      modifyZone zoneName id
      let prefixStrings :=
        insert (net.networkToString seedPrefix)
          (PrefixZone.getZonePrefixStrings net (s.allocator.zone zoneName))
      modifyConfig (setAutoNodeSpecificNetworkPrefixes node.name
        (some (",".intercalate (order.toList prefixStrings))))

/-- The loop body of `writeToConfig`. -/
def writeNodeToConfig (node : Node) : DpaM Unit :=
  writeZonePrefixes net order params.seedPrefix node

/-- `DeterministicPrefixAllocator::writeToConfig`. -/
def writeToConfig : DpaM Unit := do
  let s ← get
  forM s.topologyW.topology.nodes (writeNodeToConfig net params order)

/-- `DeterministicPrefixAllocator::allocate`, with the flag `dpa_zone_prefix_space_buffer`. -/
def Deterministic.allocate (buffer : Nat) : DpaM Unit := do
  modify fun s =>
    { s with allocator := {
        zones := rebuiltZones order buffer s.topologyW
        node2Zone := groupNodes (batchNodesToPopSites order s.topologyW) } }
  allocateZonePrefixes net params order
  allocateNodePrefixes net params order
  writeToConfig net params order

/-! ### Changes of the topology -/

/-- The loop of `findClosestZone`, for at most the given number of rounds. -/
def searchZone (w : TopologyWrapper) (zones : PrefixZones) :
    Nat → Worklist.Search String → Option String
  | 0, _ => none
  | rounds + 1, s =>
    match s.queue with
    | [] => none
    | currSiteName :: rest =>
      if find currSiteName zones ≠ none then some currSiteName
      else searchZone w zones rounds
        ((nbrSites order w currSiteName).foldl Worklist.discover ⟨s.visited, rest⟩)

/-- `DeterministicPrefixAllocator::findClosestZone`; every further site is queued for a node on it.
-/
def findClosestZone (w : TopologyWrapper) (zones : PrefixZones) (node : Node) : Option String :=
  searchZone order w zones (w.topology.nodes.length + 1) (.start node.siteName)

/-- The exception of `addNode` when a zone is full. -/
def throwZoneFull (zoneName nodeName : String) : DpaM Unit :=
  throwInvalidArgument ("No available prefixes available in zone " ++ zoneName ++
    " to assign to node " ++ nodeName)

/-- `DeterministicPrefixAllocator::addNode`. -/
def Deterministic.addNode (buffer : Nat) (node : Node) : DpaM Unit := do
  let s ← get
  if node.popNode = true ∧ find node.siteName s.allocator.zones = none then
    Deterministic.allocate net params order buffer
  else
    match findClosestZone order s.topologyW s.allocator.zones node with
    | none => return ()
    | some zoneName =>
      let zone := s.allocator.zone zoneName
      if zone.size = zone.maxSize then
        throwZoneFull zoneName node.name
      else
        match ← getNextUnallocatedPrefix net params zone with
        | none => throwZoneFull zoneName node.name
        | some newPrefix => do
          modifyZone zoneName (·.addNode node.name)
          modifyZone zoneName (·.assignNodePrefix node.name newPrefix)
          setNode2Zone node.name (some zoneName)
          onTopology (setNodePrefix node.name (some (net.networkToString newPrefix)))
          setTopologyZones net

def hasPopNode (w : TopologyWrapper) (siteName : String) : Bool :=
  (order.toList (w.assocNodes siteName)).any fun name => (w.getNode name).any (·.popNode)

/-- The last part of `delNode`, for a node that is in a zone. -/
def releasePrefix (node : Node) (zoneName : String) : DpaM Unit := do
  modifyZone zoneName id
  match node.nodePrefix with
  | none => pure ()
  | some text => do
    let network ← createNetwork net text
    modifyZone zoneName (·.delNode node.name network)
    setTopologyZones net
  setNode2Zone node.name none

/-- `DeterministicPrefixAllocator::delNode`. -/
def Deterministic.delNode (buffer : Nat) (node : Node) : DpaM Unit := do
  let s ← get
  let isPop := node.popNode = true ∧ find node.siteName s.allocator.zones ≠ none
  if isPop then
    modifyConfig (setAutoNodeSpecificNetworkPrefixes node.name none)
  if isPop ∧ hasPopNode order s.topologyW node.siteName = false then
    Deterministic.allocate net params order buffer
  else
    match s.allocator.node2Zone node.name with
    | none => return ()
    | some zoneName => releasePrefix net node zoneName

/-- `DeterministicPrefixAllocator::editNode`.  A change of `pop_node` is only logged. -/
def Deterministic.editNode (oldNode newNode : Node) : DpaM Unit := do
  let s ← get
  match s.allocator.node2Zone oldNode.name with
  | none => return ()
  | some zoneName => do
    modifyZone zoneName id
    match oldNode.nodePrefix with
    | none => return ()
    | some text =>
      if newNode.name ≠ "" ∧ newNode.name ≠ oldNode.name then
        let network ← createNetwork net text
        modifyZone zoneName (·.editNodeName oldNode.name network newNode.name)
        setNode2Zone oldNode.name none
        setNode2Zone newNode.name (some zoneName)
        setTopologyZones net

/-- The part of `addLink` for one end of the link, whose node exists by then. -/
def addLinkEnd (buffer : Nat) (nodeName : String) : DpaM Unit := do
  let s ← get
  if s.allocator.node2Zone nodeName = none then
    match s.topologyW.getNode nodeName with
    | none => throw (.thrown .badOptionalAccess)
    | some node => Deterministic.addNode net params order buffer node

/-- `DeterministicPrefixAllocator::addLink`. -/
def Deterministic.addLink (buffer : Nat) (link : Link) : DpaM Unit := do
  addLinkEnd net params order buffer link.aNodeName
  addLinkEnd net params order buffer link.zNodeName

/-- Give a zone a new name. -/
def renameZone (zoneName newName : String) (zones : PrefixZones) : PrefixZones :=
  match find zoneName zones with
  | none => zones
  | some zone => upsert {} newName (fun _ => zone) (remove zoneName zones)

/-- `DeterministicPrefixAllocator::editSite`. -/
def Deterministic.editSite (siteName : String) (newSite : Site) : DpaM Unit := do
  if newSite.name = siteName ∨ newSite.name = "" then
    return ()
  modifyAllocator fun dpa =>
    { zones := renameZone siteName newSite.name dpa.zones
      node2Zone := fun nodeName => (dpa.node2Zone nodeName).map fun zoneName =>
        if zoneName = siteName then newSite.name else zoneName }
  setTopologyZones net

/-- The deterministic allocator. -/
def deterministic (buffer : Nat) : PrefixAllocator Deterministic where
  addNode := Deterministic.addNode net params order buffer
  delNode := Deterministic.delNode net params order buffer
  editNode := Deterministic.editNode net
  addLink := Deterministic.addLink net params order buffer
  editSite := Deterministic.editSite net
  allocate := Deterministic.allocate net params order buffer

end Allocate

end Terragraph
