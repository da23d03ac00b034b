/-
Module: Terragraph.PrefixAlloc.ZonePrefixes
Purpose: What `allocateZonePrefixes` does when the search for prefix spaces succeeds.
Trusted boundary: none
Main exports: helper_found
-/
import Terragraph.PrefixAlloc.Deterministic

namespace Terragraph

open PrefixZone Finset AssocList Nat Function

/-! ### What a successful search finds -/

def SameButSpaces : PrefixZones → PrefixZones → Prop :=
  List.Forall₂ fun before after => after.1 = before.1 ∧
    after.2 = before.2.setAllocatedPrefixSpaces after.2.allocatedPrefixSpaces

def sumMaxSize (zones : PrefixZones) : Nat := (zones.map (·.2.maxSize)).sum

namespace SameButSpaces

theorem refl (zones : PrefixZones) : SameButSpaces zones zones :=
  List.forall₂_same.mpr fun _ _ => ⟨rfl, rfl⟩

theorem trans {first second third : PrefixZones} (before : SameButSpaces first second)
    (after : SameButSpaces second third) : SameButSpaces first third := by
  induction before generalizing third with
  | nil => exact after
  | cons head _ ih =>
    cases after with
    | cons head' tail' =>
      refine .cons ⟨head'.1.trans head.1, ?_⟩ (ih tail')
      rw [head'.2, head.2]
      rfl

variable {before after : PrefixZones}

theorem keys_eq (same : SameButSpaces before after) :
    keys after = keys before := by
  induction same with
  | nil => rfl
  | cons head _ ih =>
    rw [keys_cons, keys_cons, head.1, ih]

theorem find (same : SameButSpaces before after) {name : String}
    {zone : PrefixZone} (found : find name after = some zone) :
    ∃ zone', find name before = some zone' ∧
      zone = zone'.setAllocatedPrefixSpaces zone.allocatedPrefixSpaces := by
  induction same with
  | nil => cases found
  | @cons first _ _ _ head _ ih =>
    rw [AssocList.find] at found ⊢
    rw [← head.1]
    split
    · next here =>
      rw [if_pos here] at found
      cases found
      exact ⟨first.2, rfl, head.2⟩
    · next elsewhere =>
      rw [if_neg elsewhere] at found
      exact ih found

end SameButSpaces

theorem takeSpaces_eq {newZones zonesCopy : PrefixZones} (same : SameButSpaces zonesCopy newZones)
    (nodup : (keys zonesCopy).Nodup) : takeSpaces newZones zonesCopy = newZones := by
  -- the entries before the current one have already been replaced
  suffices general : ∀ done : PrefixZones, (keys (done ++ zonesCopy)).Nodup →
      takeSpaces newZones (done ++ zonesCopy) = done ++ newZones from general [] nodup
  clear nodup
  induction same with
  | nil => exact fun done _ => rfl
  | @cons before after rest _ head _ ih =>
    intro done nodup
    obtain ⟨_, zone⟩ := before
    obtain ⟨name', zone'⟩ := after
    obtain ⟨rfl, zoneEq⟩ := head
    have apart : name' ∉ keys done := by
      intro member
      rw [keys, List.map_append, List.nodup_append] at nodup
      exact nodup.2.2 name' member name' (by simp) rfl
    have entered : upsert {} name'
        (·.setAllocatedPrefixSpaces zone'.allocatedPrefixSpaces) (done ++ (name', zone) :: rest) =
          done ++ (name', zone') :: rest := by
      rw [upsert_append_of_notMem apart, upsert, if_pos rfl, ← zoneEq]
    have later := ih (done ++ [(name', zone')]) (by simpa [keys] using nodup)
    rw [takeSpaces, List.foldl_cons, entered]
    simpa [takeSpaces] using later

theorem distribute_same (perZone : Nat) (all : Bool) (zones : PrefixZones) (space : Nat) :
    SameButSpaces zones (distribute perZone all zones space).1 := by
  induction zones generalizing space with
  | nil => exact .nil
  | cons _ rest ih =>
    unfold distribute
    split
    · split
      · exact .refl _
      · split
        · exact .cons ⟨rfl, rfl⟩ (SameButSpaces.refl rest)
        · exact .cons ⟨rfl, rfl⟩ (ih _)
    · exact .cons ⟨rfl, rfl⟩ (ih _)

theorem distribute_sum (perZone : Nat) (all : Bool) (zones : PrefixZones) (space : Nat) :
    sumMaxSize (distribute perZone all zones space).1 + (distribute perZone all zones space).2 =
      sumMaxSize zones + space := by
  induction zones generalizing space with
  | nil => rfl
  | cons _ _ ih =>
    unfold sumMaxSize at ih ⊢
    unfold distribute
    split
    · split
      · rfl
      · have later := ih (space - perZone)
        split
        · simp only [List.map_cons, List.sum_cons, maxSize_addToPrefixSpace]
          omega
        · simp only [List.map_cons, List.sum_cons, maxSize_addToPrefixSpace]
          omega
    · have later := ih space
      simp only [List.map_cons, List.sum_cons]
      omega

variable {zones : PrefixZones}

theorem distribute_binary {perZone : Nat} (power : ∃ exponent, perZone = 2 ^ exponent) (all : Bool)
    (binary : ∀ entry ∈ zones, entry.2.Binary) (space : Nat) :
    ∀ entry ∈ (distribute perZone all zones space).1, entry.2.Binary := by
  induction zones generalizing space with
  | nil => exact binary
  | cons _ _ ih =>
    obtain ⟨here, others⟩ := List.forall_mem_cons.mp binary
    have given := binary_addToPrefixSpace here power
    unfold distribute
    split
    · split
      · exact binary
      · split
        · exact List.forall_mem_cons.mpr ⟨given, others⟩
        · exact List.forall_mem_cons.mpr ⟨given, ih others _⟩
    · exact List.forall_mem_cons.mpr ⟨here, ih others _⟩

/-- What the search guarantees about the assignment it finds. -/
structure Division (zones : PrefixZones) (space : Nat) (divided : PrefixZones) : Prop where
  same : SameButSpaces zones divided
  binary : ∀ entry ∈ divided, entry.2.Binary
  sum : sumMaxSize divided = sumMaxSize zones + space
  satisfied : totRem divided = 0

/-- A search that finds an assignment has divided the whole space into powers of two. -/
theorem helper_found {depth space : Nat} {zones divided : PrefixZones}
    (found : allocatePrefixSpacesHelper depth zones space = some (some divided))
    (nodup : (keys zones).Nodup) (binary : ∀ entry ∈ zones, entry.2.Binary) :
    Division zones space divided := by
  induction depth generalizing zones space divided with
  | zero => cases found
  | succ _ ih =>
    have unstarved : ¬ Starved zones space := by
      intro starved
      rw [starved_never_returns starved] at found
      cases found
    rw [allocatePrefixSpacesHelper] at found
    split at found
    · cases found
    split at found
    · cases found
    next _ enough =>
    split at found
    · next zero =>
      split at found
      · next noNeed =>
        cases found
        exact ⟨.refl _, binary, by rw [zero, add_zero], noNeed⟩
      · cases found
    · next positive =>
      have first : nextPowerOf2 (numZones zones) ≤ space := by
        by_contra few
        exact unstarved ⟨pos_of_ne_zero positive, not_lt.mp enough, not_le.mp few⟩
      have segmented := nextPowerOf2_pos (numZones zones)
      generalize space + 1 = rounds, nextPowerOf2 (numZones zones) = numSegments at *
      induction rounds generalizing numSegments with
      | zero => cases found
      | succ _ roundHypothesis =>
        rw [divide] at found
        split at found
        · cases found
        · next _ returned =>
          have same := distribute_same (shareOf space numSegments) (totRem zones = 0) zones space
          have power : ∃ exponent, shareOf space numSegments = 2 ^ exponent :=
            ⟨_, shareOf_eq segmented first⟩
          have nodupCopy : (keys (attempt zones space numSegments).1).Nodup := by
            rw [attempt, same.keys_eq]
            exact nodup
          have division := ih returned nodupCopy (distribute_binary power _ binary space)
          rw [takeSpaces_eq division.same nodupCopy] at found
          cases found
          refine ⟨same.trans division.same, division.binary, ?_, division.satisfied⟩
          rw [division.sum, attempt, distribute_sum]
        · split at found
          · cases found
          · next within =>
            exact roundHypothesis _ found (not_lt.mp within) (by omega)

/-! ### Placing zone prefixes side by side -/

/-- The search for an offset is the search for a free block, which is then taken. -/
theorem allocateZonePrefixesHelper_eq (levels level number target : Nat) (taken : Nat → Option Nat) :
    allocateZonePrefixesHelper levels level number target taken =
      match BlockTree.search taken target levels level number with
      | some found => (some found, update taken found (some target))
      | none => (none, taken) := by
  induction levels generalizing level number with
  | zero => rfl
  | succ levels ih =>
    have double : number <<< 1 = number * 2 := by rw [shiftLeft_eq]
    rw [allocateZonePrefixesHelper, BlockTree.search, double, ih]
    split
    · rfl
    split
    · rfl
    split
    · next atTarget => rw [atTarget]
    · cases BlockTree.search taken target levels (level + 1) (number * 2) with
      | some => rfl
      | none => exact ih _ _

section Placement

variable (params : PrefixAllocParams)

def widthOf (len : Nat) : Nat := 2 ^ (params.allocPrefixLen - len)

def unit : Nat := 2 ^ (params.seedPrefix.family.bitCount - params.allocPrefixLen)

/-- The zone prefixes of the given lengths, side by side from the given prefix on. -/
def layout : Nat → List (Nat × String) → List (String × CIDRNetwork)
  | _, [] => []
  | frontier, (len, zoneName) :: rest =>
    (zoneName, params.seedPrefix.subnetAt len (frontier / widthOf params len)) ::
      layout (frontier + widthOf params len) rest

def totalWidth (requests : List (Nat × String)) : Nat :=
  (requests.map fun request => widthOf params request.1).sum

/-- The requested zone prefixes can be placed side by side. -/
structure Placeable (frontier : Nat) (requests : List (Nat × String)) : Prop where
  ascending : requests.Pairwise fun first second => first.1 ≤ second.1
  seed_le : ∀ request ∈ requests, params.seedPrefix.length ≤ request.1
  le_alloc : ∀ request ∈ requests, request.1 ≤ params.allocPrefixLen
  aligned : ∀ request ∈ requests, widthOf params request.1 ∣ frontier
  room : frontier + totalWidth params requests ≤ networkPrefixSpace params

end Placement

variable {entry : String × CIDRNetwork} {s : AllocState Deterministic}

section Placement

variable {params : PrefixAllocParams} {frontier len : Nat} {zoneName : String}
  {requests : List (Nat × String)}

theorem widthOf_pos (params : PrefixAllocParams) (len : Nat) : 0 < widthOf params len :=
  Nat.two_pow_pos _

theorem networkPrefixSpace_eq (params : PrefixAllocParams) :
    networkPrefixSpace params = 2 ^ (params.allocPrefixLen - params.seedPrefix.length) :=
  networkToPrefixSpace_eq _ _

theorem totalWidth_cons : totalWidth params ((len, zoneName) :: requests) =
      widthOf params len + totalWidth params requests := by
  simp [totalWidth]

section

variable (placeable : Placeable params frontier ((len, zoneName) :: requests))
include placeable

theorem Placeable.tail : Placeable params (frontier + widthOf params len) requests := by
  have ascending := List.pairwise_cons.mp placeable.ascending
  refine ⟨ascending.2, ?_, ?_, ?_, ?_⟩
  · exact fun request member => placeable.seed_le request (by simp [member])
  · exact fun request member => placeable.le_alloc request (by simp [member])
  · intro request member
    have longer : len ≤ request.1 := ascending.1 request member
    apply Nat.dvd_add (placeable.aligned request (by simp [member]))
    exact Nat.pow_dvd_pow 2 (by omega)
  · rw [add_assoc]
    exact placeable.room

theorem Placeable.hasSubnet : params.seedPrefix.HasSubnet len (frontier / widthOf params len) := by
  have seed_le : params.seedPrefix.length ≤ len := placeable.seed_le _ List.mem_cons_self
  have le_alloc : len ≤ params.allocPrefixLen := placeable.le_alloc _ List.mem_cons_self
  refine ⟨seed_le, le_alloc.trans params.le_bitCount, ?_⟩
  have room := placeable.room
  have positive := widthOf_pos params len
  rw [totalWidth_cons, networkPrefixSpace_eq] at room
  have whole : 2 ^ (params.allocPrefixLen - params.seedPrefix.length) =
      widthOf params len * 2 ^ (len - params.seedPrefix.length) := by
    rw [widthOf, ← pow_add]
    congr 1
    omega
  exact Nat.div_lt_of_lt_mul (by omega)

theorem Placeable.block : (params.seedPrefix.subnetAt len (frontier / widthOf params len)).address =
        params.seedPrefix.address + frontier * unit params ∧
      (params.seedPrefix.subnetAt len (frontier / widthOf params len)).size =
        widthOf params len * unit params := by
  have le_alloc : len ≤ params.allocPrefixLen := placeable.le_alloc _ List.mem_cons_self
  have fits := params.le_bitCount
  have aligned : widthOf params len ∣ frontier := placeable.aligned _ List.mem_cons_self
  have widths : 2 ^ (params.seedPrefix.family.bitCount - len) =
      widthOf params len * unit params := by
    rw [widthOf, unit, ← pow_add]
    congr 1
    omega
  rw [Cidr.Network.subnetAt_eq placeable.hasSubnet]
  constructor
  · rw [Cidr.Network.subnet_address, widths, ← Nat.mul_assoc, Nat.div_mul_cancel aligned]
  · rw [Cidr.Network.subnet_size, widths]

end

def addZonePrefixes (placed : List (String × CIDRNetwork)) (zones : PrefixZones) : PrefixZones :=
  placed.foldl (fun zones entry => upsert {} entry.1 (·.addZonePrefix entry.2) zones) zones

section

variable (placeable : Placeable params frontier requests)
include placeable

theorem run_placeZonePrefixes (net : NetworkUtils) {taken : Nat → Option Nat} {target : Nat}
    (packed : BlockTree.Packed params.allocPrefixLen taken target frontier)
    (later : ∀ request ∈ requests, target ≤ request.1)
    (rooted : ∀ other l, taken other = some l → params.seedPrefix.length ≤ l) :
    (placeZonePrefixes net params requests taken).run s =
      .ok () { s with allocator := { s.allocator with
        zones := addZonePrefixes (layout params frontier requests) s.allocator.zones } } := by
  induction requests generalizing frontier taken target s with
  | nil => rfl
  | cons request _ ih =>
    obtain ⟨len, zoneName⟩ := request
    have seed_le : params.seedPrefix.length ≤ len := placeable.seed_le _ List.mem_cons_self
    have le_alloc : len ≤ params.allocPrefixLen := placeable.le_alloc _ List.mem_cons_self
    have room := placeable.room
    have positive := widthOf_pos params len
    rw [totalWidth_cons, networkPrefixSpace_eq] at room
    have finer := packed.finer (later (len, zoneName) (by simp))
    have found : BlockTree.search taken len (len + 1 - params.seedPrefix.length)
        params.seedPrefix.length 0 = some (frontier / widthOf params len) :=
      finer.search_eq le_alloc seed_le (by omega) rooted (by omega)
    have next := ih (s := { s with allocator := { s.allocator with
        zones := upsert {} zoneName
          (·.addZonePrefix (params.seedPrefix.subnetAt len (frontier / widthOf params len)))
          s.allocator.zones } })
      placeable.tail (finer.push le_alloc)
      (fun request member => (List.pairwise_cons.mp placeable.ascending).1 request member) (by
        intro other l isTaken
        by_cases here : other = frontier / 2 ^ (params.allocPrefixLen - len)
        · rw [here, update_self] at isTaken
          cases isTaken
          exact seed_le
        · rw [update_of_ne here] at isTaken
          exact rooted other l isTaken)
    rw [placeZonePrefixes, allocateZonePrefixesHelper_eq, found]
    rw [EStateM.run_bind, run_getNthPrefix net placeable.hasSubnet]
    exact next

/-! ### The tiling -/

theorem Placeable.bounds
    (member : entry ∈ layout params frontier requests) :
    params.seedPrefix.address + frontier * unit params ≤ entry.2.address ∧
      entry.2.address + entry.2.size ≤
        params.seedPrefix.address + (frontier + totalWidth params requests) * unit params := by
  induction requests generalizing frontier with
  | nil => cases member
  | cons _ _ ih =>
    rw [totalWidth_cons]
    rcases List.mem_cons.mp member with here | later
    · rw [here]
      rw [placeable.block.1, placeable.block.2]
      refine ⟨le_rfl, ?_⟩
      rw [add_assoc, ← add_mul]
      exact Nat.add_le_add_left (Nat.mul_le_mul_right _ (by omega)) _
    · obtain ⟨starts, ends⟩ := ih placeable.tail later
      rw [add_assoc frontier] at ends
      refine ⟨le_trans ?_ starts, ends⟩
      exact Nat.add_le_add_left (Nat.mul_le_mul_right _ (Nat.le_add_right _ _)) _

theorem Placeable.disjoint : (layout params frontier requests).Pairwise fun first second =>
      ∀ x, first.2.Mem x → ¬ second.2.Mem x := by
  induction requests generalizing frontier with
  | nil => exact .nil
  | cons _ _ ih =>
    refine List.pairwise_cons.mpr ⟨?_, ih placeable.tail⟩
    intro _ later x here there
    have behind := (placeable.tail.bounds later).1
    have inside := here.2
    rw [placeable.block.1, placeable.block.2, add_assoc, ← add_mul] at inside
    exact absurd (there.1.trans_lt inside) (not_lt.mpr behind)

theorem Placeable.covers {x : Nat} (starts : params.seedPrefix.address + frontier * unit params ≤ x)
    (ends : x < params.seedPrefix.address + (frontier + totalWidth params requests) * unit params) :
    ∃ entry ∈ layout params frontier requests, entry.2.Mem x := by
  induction requests generalizing frontier with
  | nil => exact absurd (starts.trans_lt ends) (by simp [totalWidth])
  | cons request _ ih =>
    obtain ⟨len, _⟩ := request
    rcases lt_or_ge x (params.seedPrefix.address +
      (frontier + widthOf params len) * unit params) with here | later
    · refine ⟨_, List.mem_cons_self, ?_⟩
      constructor
      · rw [placeable.block.1]
        exact starts
      · rw [placeable.block.1, placeable.block.2, add_assoc, ← add_mul]
        exact here
    · rw [totalWidth_cons, ← add_assoc] at ends
      obtain ⟨entry, member, inside⟩ := ih placeable.tail later ends
      exact ⟨entry, List.mem_cons_of_mem _ member, inside⟩

theorem Placeable.requests_eq :
    (layout params frontier requests).map (fun entry => (entry.2.length, entry.1)) = requests := by
  induction requests generalizing frontier with
  | nil => rfl
  | cons _ _ ih =>
    rw [layout, List.map_cons, ih placeable.tail, Cidr.Network.subnetAt_eq placeable.hasSubnet]
    rfl

theorem Placeable.family :
    ∀ entry ∈ layout params frontier requests, entry.2.family = params.seedPrefix.family := by
  induction requests generalizing frontier with
  | nil => simp [layout]
  | cons _ _ ih =>
    refine List.forall_mem_cons.mpr ⟨?_, ih placeable.tail⟩
    rw [Cidr.Network.subnetAt_eq placeable.hasSubnet]
    rfl

end

/-- When the requests use up the space, zone prefixes have the addresses of the seed prefix only. -/
theorem Placeable.tiles (placeable : Placeable params 0 requests)
    (whole : totalWidth params requests = networkPrefixSpace params) (x : Nat) :
    params.seedPrefix.Mem x ↔ ∃ entry ∈ layout params 0 requests, entry.2.Mem x := by
  have size : params.seedPrefix.size = totalWidth params requests * unit params := by
    rw [whole, networkPrefixSpace_eq]
    exact Cidr.Network.size_eq params.seed_lt.le params.le_bitCount
  constructor
  · intro ⟨starts, ends⟩
    apply placeable.covers
    · simpa using starts
    · simpa [size] using ends
  · intro ⟨_, member, inside⟩
    obtain ⟨starts, ends⟩ := placeable.bounds member
    simp only [zero_mul, zero_add, ← size] at starts ends
    exact ⟨starts.trans inside.1, inside.2.trans_le ends⟩

end Placement

/-! ### The requests of all zones -/

/-- Prefix spaces that are powers of two and add up to the prefix space of the network. -/
structure Divided (params : PrefixAllocParams) (zones : PrefixZones) : Prop where
  nodup : (keys zones).Nodup
  binary : ∀ entry ∈ zones, entry.2.Binary
  sum : sumMaxSize zones = networkPrefixSpace params

section Requests

variable {params : PrefixAllocParams} {order : SetOrder}

theorem prefixLengthOf_pow (params : PrefixAllocParams) {exponent : Nat}
    (fits : exponent ≤ params.allocPrefixLen - params.seedPrefix.length) :
    prefixLengthOf params (2 ^ exponent) = params.allocPrefixLen - exponent := by
  have longer := params.seed_lt
  rw [prefixLengthOf, networkPrefixSpace_eq, Nat.pow_div fits Nat.two_pos, Nat.log2_two_pow]
  omega

theorem Divided.width (divided : Divided params zones) {entry : String × PrefixZone}
    (member : entry ∈ zones) {space : Nat} (isSpace : space ∈ entry.2.allocatedPrefixSpaces) :
    params.seedPrefix.length ≤ prefixLengthOf params space ∧
      prefixLengthOf params space ≤ params.allocPrefixLen ∧
      widthOf params (prefixLengthOf params space) = space := by
  have below : space ≤ networkPrefixSpace params := by
    rw [← divided.sum]
    calc space ≤ entry.2.maxSize :=
          single_le_sum (f := fun space => space) (fun _ _ => zero_le _) isSpace
      _ ≤ sumMaxSize zones :=
          List.single_le_sum (fun _ _ => zero_le _) _ (List.mem_map_of_mem member)
  obtain ⟨_, rfl⟩ := divided.binary entry member space isSpace
  rw [networkPrefixSpace_eq] at below
  have fits := (Nat.pow_le_pow_iff_right Nat.one_lt_two).mp below
  have longer := params.seed_lt
  rw [prefixLengthOf_pow params fits, widthOf]
  refine ⟨by omega, by omega, ?_⟩
  congr 1
  omega

variable {len : Nat}

theorem mem_prefixLengths : len ∈ prefixLengths params zones ↔
      ∃ entry ∈ zones, len ∈ entry.2.allocatedPrefixSpaces.image (prefixLengthOf params) := by
  unfold prefixLengths
  induction zones with
  | nil => simp
  | cons _ _ ih =>
    simp only [List.foldr_cons, mem_union, ih, List.mem_cons, exists_eq_or_imp]

variable {zoneName : String}

theorem mem_zonesOfLength :
    zoneName ∈ zonesOfLength params zones len ↔ ∃ zone, (zoneName, zone) ∈ zones ∧
      len ∈ zone.allocatedPrefixSpaces.image (prefixLengthOf params) := by
  simp [zonesOfLength]

theorem mem_zoneRequests :
    (len, zoneName) ∈ zoneRequests params order zones ↔ ∃ zone, (zoneName, zone) ∈ zones ∧
      len ∈ zone.allocatedPrefixSpaces.image (prefixLengthOf params) := by
  simp only [zoneRequests, List.mem_flatMap, Ascending.mem_listing, List.mem_map, Prod.mk.injEq,
    order.mem_toList]
  constructor
  · rintro ⟨_, _, _, member, rfl, rfl⟩
    exact mem_zonesOfLength.mp member
  · intro requested
    obtain ⟨zone, member, isLength⟩ := requested
    exact ⟨len, mem_prefixLengths.mpr ⟨_, member, isLength⟩, zoneName,
      mem_zonesOfLength.mpr ⟨zone, member, isLength⟩, rfl, rfl⟩

theorem nodup_zoneRequests : (zoneRequests params order zones).Nodup :=
  nodup_flatMap_pair id (by simpa using Ascending.nodup_listing _) fun _ => order.nodup _

theorem ascending_zoneRequests :
    (zoneRequests params order zones).Pairwise fun first second => first.1 ≤ second.1 := by
  refine List.pairwise_flatMap.mpr ⟨?_, ?_⟩
  · intro len _
    rw [List.pairwise_map]
    exact List.pairwise_of_forall fun _ _ => le_rfl
  · refine (Ascending.pairwise_listing _).imp ?_
    intro _ _ le _ inFirst _ inSecond
    obtain ⟨_, _, rfl⟩ := List.mem_map.mp inFirst
    obtain ⟨_, _, rfl⟩ := List.mem_map.mp inSecond
    exact le

section

variable (divided : Divided params zones)
include divided

theorem Divided.zoneWidth {zone : PrefixZone} (member : (zoneName, zone) ∈ zones) :
    totalWidth params ((zoneRequests params order zones).filter fun request =>
      request.2 = zoneName) = zone.maxSize := by
  have found := (find_eq_some_iff divided.nodup).mpr member
  generalize isOwn : (zoneRequests params order zones).filter _ = own
  have memOwn : ∀ request, request ∈ own ↔
      request ∈ zoneRequests params order zones ∧ request.2 = zoneName := by
    intro request
    rw [← isOwn, List.mem_filter, decide_eq_true_eq]
  have lengths : (own.map Prod.fst).toFinset =
      zone.allocatedPrefixSpaces.image (prefixLengthOf params) := by
    ext len
    simp only [List.mem_toFinset, List.mem_map, memOwn]
    constructor
    · rintro ⟨⟨_, _⟩, ⟨requested, rfl⟩, rfl⟩
      obtain ⟨_, isOther, isLength⟩ := mem_zoneRequests.mp requested
      cases found.symm.trans ((find_eq_some_iff divided.nodup).mpr isOther)
      exact isLength
    · intro isLength
      exact ⟨(len, zoneName), ⟨mem_zoneRequests.mpr ⟨zone, member, isLength⟩, rfl⟩, rfl⟩
  have nodup : (own.map Prod.fst).Nodup := by
    have nodupOwn : own.Nodup := isOwn ▸ nodup_zoneRequests.filter _
    refine nodupOwn.map_on ?_
    intro first inFirst second inSecond same
    have firstName := ((memOwn first).mp inFirst).2
    exact Prod.ext same (firstName.trans ((memOwn second).mp inSecond).2.symm)
  have injective : Set.InjOn (prefixLengthOf params) zone.allocatedPrefixSpaces := by
    intro _ inFirst _ inSecond same
    rw [← (divided.width member inFirst).2.2, ← (divided.width member inSecond).2.2, same]
  calc totalWidth params own = ((own.map Prod.fst).map (widthOf params)).sum := by
        rw [List.map_map]
        rfl
    _ = ∑ len ∈ zone.allocatedPrefixSpaces.image (prefixLengthOf params), widthOf params len := by
        rw [← List.sum_toFinset _ nodup, lengths]
    _ = ∑ space ∈ zone.allocatedPrefixSpaces, widthOf params (prefixLengthOf params space) :=
        sum_image injective
    _ = zone.maxSize :=
        sum_congr rfl fun _ isSpace => (divided.width member isSpace).2.2

theorem Divided.totalWidth :
    totalWidth params (zoneRequests params order zones) = networkPrefixSpace params := by
  have known : ∀ request ∈ zoneRequests params order zones, request.2 ∈ keys zones := by
    rintro ⟨_, _⟩ requested
    obtain ⟨_, member, _⟩ := mem_zoneRequests.mp requested
    exact List.mem_map.mpr ⟨_, member, rfl⟩
  have parts := sum_by_key Prod.snd (fun request => widthOf params request.1)
    (zoneRequests params order zones) divided.nodup known
  rw [Terragraph.totalWidth, parts, ← divided.sum, sumMaxSize, keys, List.map_map]
  congr 1
  apply List.map_congr_left
  intro _ member
  exact divided.zoneWidth member

theorem Divided.placeable : Placeable params 0 (zoneRequests params order zones) := by
  have lengths : ∀ request ∈ zoneRequests params order zones,
      params.seedPrefix.length ≤ request.1 ∧ request.1 ≤ params.allocPrefixLen := by
    rintro ⟨_, _⟩ requested
    obtain ⟨_, member, isLength⟩ := mem_zoneRequests.mp requested
    obtain ⟨_, isSpace, rfl⟩ := mem_image.mp isLength
    exact (divided.width member isSpace).imp_right And.left
  refine ⟨ascending_zoneRequests, fun request requested => (lengths request requested).1,
    fun request requested => (lengths request requested).2, fun _ _ => dvd_zero _, ?_⟩
  rw [zero_add, divided.totalWidth]

end

end Requests

/-! ### The zones with their prefixes -/

def prefixesOf (placed : List (String × CIDRNetwork)) (zoneName : String) : Finset CIDRNetwork :=
  ((placed.filter fun entry => entry.1 = zoneName).map Prod.snd).toFinset

def PrefixZone.capacity (params : PrefixAllocParams) (zone : PrefixZone) : Nat :=
  ∑ zonePrefix ∈ zone.allocatedZonePrefixes, widthOf params zonePrefix.length

/-- The zone prefixes are in the address space of the seed prefix, and no two overlap. -/
structure ZonesDisjoint (params : PrefixAllocParams) (zones : PrefixZones) : Prop where
  inSeed : ∀ entry ∈ zones, ∀ zonePrefix ∈ entry.2.allocatedZonePrefixes,
    zonePrefix.family = params.seedPrefix.family ∧ zonePrefix.length ≤ params.allocPrefixLen
  disjoint : ∀ first ∈ zones, ∀ second ∈ zones, ∀ one ∈ first.2.allocatedZonePrefixes,
    ∀ two ∈ second.2.allocatedZonePrefixes, ∀ x, one.Mem x → two.Mem x →
      first.1 = second.1 ∧ one = two

/-- The zone prefixes tile the seed prefix, and each zone has prefixes for its prefix spaces. -/
structure Tiled (params : PrefixAllocParams) (zones : PrefixZones) : Prop
    extends ZonesDisjoint params zones where
  covers : ∀ x, params.seedPrefix.Mem x ↔
    ∃ entry ∈ zones, ∃ zonePrefix ∈ entry.2.allocatedZonePrefixes, zonePrefix.Mem x
  capacity : ∀ entry ∈ zones, entry.2.capacity params = entry.2.maxSize

variable {placed : List (String × CIDRNetwork)}

theorem mem_prefixesOf {zoneName : String} {zonePrefix : CIDRNetwork} :
    zonePrefix ∈ prefixesOf placed zoneName ↔ (zoneName, zonePrefix) ∈ placed := by
  simp [prefixesOf]

theorem addZonePrefixes_eq (nodup : (keys zones).Nodup)
    (known : ∀ entry ∈ placed, entry.1 ∈ keys zones) :
    addZonePrefixes placed zones = zones.map fun entry => (entry.1, { entry.2 with
      allocatedZonePrefixes := entry.2.allocatedZonePrefixes ∪ prefixesOf placed entry.1 }) := by
  induction placed generalizing zones with
  | nil =>
    calc zones = zones.map id := (List.map_id zones).symm
      _ = _ := List.map_congr_left fun entry _ => by simp [prefixesOf]
  | cons item rest ih =>
    have keys : keys (upsert {} item.1 (·.addZonePrefix item.2) zones) = keys zones := by
      rw [keys_upsert, if_pos (known item (by simp))]
    have later := ih (keys ▸ nodup) fun entry member => keys ▸ known entry (by simp [member])
    rw [addZonePrefixes] at later ⊢
    rw [List.foldl_cons, later, upsert_eq_map nodup (known item (by simp)),
      List.map_map]
    apply List.map_congr_left
    intro entry _
    by_cases here : entry.1 = item.1
    · have first : prefixesOf (item :: rest) entry.1 = insert item.2 (prefixesOf rest entry.1) := by
        simp [prefixesOf, here]
      rw [comp_apply, if_pos here, first]
      simp only [addZonePrefix, insert_union, union_insert]
    · have first : prefixesOf (item :: rest) entry.1 = prefixesOf rest entry.1 := by
        simp [prefixesOf, Ne.symm here]
      simp [here, first]

section Tiling

variable {params : PrefixAllocParams} {order : SetOrder}

/-- The zones after `allocateZonePrefixes`, for zones that had no prefixes. -/
def placedZones (params : PrefixAllocParams) (order : SetOrder) (zones : PrefixZones) :
    PrefixZones :=
  zones.map fun entry => (entry.1, { entry.2 with
    allocatedZonePrefixes :=
      prefixesOf (layout params 0 (zoneRequests params order zones)) entry.1 })

variable {frontier : Nat} {requests : List (Nat × String)}

section

variable (placeable : Placeable params frontier requests)
include placeable

theorem Placeable.requested
    (placed : entry ∈ layout params frontier requests) :
    (entry.2.length, entry.1) ∈ requests := by
  rw [← placeable.requests_eq]
  exact List.mem_map.mpr ⟨entry, placed, rfl⟩

theorem nodup_layout : ((layout params frontier requests).map Prod.snd).Nodup := by
  rw [List.Nodup, List.pairwise_map]
  refine placeable.disjoint.imp ?_
  intro first _ apart same
  have inside : first.2.Mem first.2.address := ⟨le_rfl, Nat.lt_add_of_pos_right first.2.size_pos⟩
  exact apart _ inside (same ▸ inside)

theorem Placeable.capacity (zoneName : String) :
    ∑ zonePrefix ∈ prefixesOf (layout params frontier requests) zoneName,
        widthOf params zonePrefix.length =
      totalWidth params (requests.filter fun request => request.2 = zoneName) := by
  have nodup : (((layout params frontier requests).filter fun entry =>
      entry.1 = zoneName).map Prod.snd).Nodup :=
    (nodup_layout placeable).sublist (List.filter_sublist.map _)
  rw [prefixesOf, List.sum_toFinset _ nodup, totalWidth]
  nth_rewrite 2 [← placeable.requests_eq]
  rw [List.filter_map, List.map_map, List.map_map]
  rfl

end

theorem Divided.tiled (divided : Divided params zones) :
    Tiled params (placedZones params order zones) := by
  have placeable : Placeable params 0 (zoneRequests params order zones) := divided.placeable
  have unique : ∀ first ∈ layout params 0 (zoneRequests params order zones),
      ∀ second ∈ layout params 0 (zoneRequests params order zones), ∀ x, first.2.Mem x →
        second.2.Mem x → first = second := by
    intro first inFirst second inSecond x here there
    by_contra apart
    have symmetric : Std.Symm fun first second : String × CIDRNetwork =>
        ∀ x, first.2.Mem x → ¬ second.2.Mem x :=
      ⟨fun _ _ disjoint x inside outside => disjoint x outside inside⟩
    exact placeable.disjoint.forall inFirst inSecond apart x here there
  refine ⟨⟨?_, ?_⟩, ?_, ?_⟩
  · intro _ member _ isPrefix
    obtain ⟨_, _, rfl⟩ := List.mem_map.mp member
    have placed := mem_prefixesOf.mp isPrefix
    exact ⟨placeable.family _ placed, placeable.le_alloc _ (placeable.requested placed)⟩
  · intro _ inFirst _ inSecond _ isOne _ isTwo x here there
    obtain ⟨_, _, rfl⟩ := List.mem_map.mp inFirst
    obtain ⟨_, _, rfl⟩ := List.mem_map.mp inSecond
    have same := unique _ (mem_prefixesOf.mp isOne) _ (mem_prefixesOf.mp isTwo) x here there
    exact Prod.mk.inj same
  · intro x
    rw [placeable.tiles divided.totalWidth]
    constructor
    · intro ⟨placed, member, inside⟩
      obtain ⟨_, isZone, _⟩ := mem_zoneRequests.mp (placeable.requested member)
      exact ⟨_, List.mem_map.mpr ⟨_, isZone, rfl⟩, placed.2, mem_prefixesOf.mpr member, inside⟩
    · intro ⟨_, member, _, isPrefix, inside⟩
      obtain ⟨_, _, rfl⟩ := List.mem_map.mp member
      exact ⟨_, mem_prefixesOf.mp isPrefix, inside⟩
  · intro _ member
    obtain ⟨before, isZone, rfl⟩ := List.mem_map.mp member
    have width : Terragraph.totalWidth params ((zoneRequests params order zones).filter fun request =>
        request.2 = before.1) = before.2.maxSize := divided.zoneWidth isZone
    exact (placeable.capacity before.1).trans width

def published (net : NetworkUtils) (zones : PrefixZones) (w : TopologyWrapper) : TopologyWrapper :=
  { w with topology := { w.topology with zones := some (thriftZones net zones) } }

def clearedZones (zones : PrefixZones) : PrefixZones :=
  zones.map fun entry => (entry.1, entry.2.clearPrefixSpaces)

/-- When the search finds an assignment, its zone prefixes are placed and published. -/
theorem run_allocateZonePrefixes_found (net : NetworkUtils)
    (found : allocatePrefixSpacesHelper (networkPrefixSpace params + 2)
      (clearedZones s.allocator.zones) (networkPrefixSpace params) = some (some zones))
    (divided : Divided params zones)
    (unplaced : ∀ entry ∈ zones, entry.2.allocatedZonePrefixes = ∅) :
    (allocateZonePrefixes net params order).run s = .ok () { s with
        topologyW := published net (placedZones params order zones) s.topologyW
        allocator := { s.allocator with zones := placedZones params order zones } } := by
  have nonempty : zones.isEmpty = false := by
    cases zones with
    | nil =>
      have empty := divided.sum
      rw [networkPrefixSpace_eq] at empty
      exact absurd empty (Nat.two_pow_pos _).ne
    | cons => rfl
  have known : ∀ entry ∈ layout params 0 (zoneRequests params order zones),
      entry.1 ∈ keys zones := by
    intro _ placed
    obtain ⟨_, isZone, _⟩ := mem_zoneRequests.mp (divided.placeable.requested placed)
    exact List.mem_map.mpr ⟨_, isZone, rfl⟩
  have entered : addZonePrefixes (layout params 0 (zoneRequests params order zones)) zones =
      placedZones params order zones := by
    rw [addZonePrefixes_eq divided.nodup known]
    apply List.map_congr_left
    intro entry member
    rw [unplaced entry member, empty_union]
  have spaces : (allocatePrefixSpaces (networkPrefixSpace params)).run s =
      .ok () { s with allocator := { s.allocator with zones := zones } } := by
    rw [clearedZones] at found
    simp only [allocatePrefixSpaces, modifyAllocator, EStateM.run_bind]
    simp only [EStateM.run, modify, modifyGet, MonadStateOf.modifyGet, EStateM.modifyGet, get,
      getThe, MonadStateOf.get, EStateM.get, found]
  have placeable : Placeable params 0 (zoneRequests params order zones) := divided.placeable
  have packed := BlockTree.packed_empty params.allocPrefixLen params.seedPrefix.length
  have placed := run_placeZonePrefixes placeable net
    (s := { s with allocator := { s.allocator with zones := zones } })
    packed placeable.seed_le (by simp)
  rw [allocateZonePrefixes, EStateM.run_bind, spaces]
  simp only
  rw [EStateM.run_bind]
  simp only [EStateM.run_get, nonempty, Bool.false_eq_true, if_false]
  rw [EStateM.run_bind, placed, entered]
  rfl

end Tiling

end Terragraph
