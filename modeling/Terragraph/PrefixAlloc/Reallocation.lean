/-
Module: Terragraph.PrefixAlloc.Reallocation
Purpose: What `DeterministicPrefixAllocator::allocate` does and leaves behind.
Trusted boundary: none
Main exports: mem_rebuiltZones, run_allocate_empty
-/
import Terragraph.PrefixAlloc.NodePrefixes

namespace Terragraph

open Guarded Finset Deterministic AssocList EStateM Function

/-! ### The zones that are rebuilt -/

def zoneNodes (batch : List (String × Nat × String)) (zoneName : String) : Finset String :=
  ((batch.filter fun entry => entry.2.2 = zoneName).map Prod.fst).toFinset

def freshZone (buffer : Nat) (nodes : Finset String) : PrefixZone :=
  { nodes := nodes, allocationSizeOverride := nodes.card + buffer }

variable {zones : PrefixZones} {zone : PrefixZone}

section Rebuilt

variable {batch : List (String × Nat × String)} {zoneName nodeName : String}

theorem mem_zoneNodes : nodeName ∈ zoneNodes batch zoneName ↔
    ∃ distance, (nodeName, distance, zoneName) ∈ batch := by
  simp [zoneNodes]

variable (entry : String × Nat × String)

theorem groupZones_append :
    groupZones (batch ++ [entry]) =
      upsert {} entry.2.2 (·.addNode entry.1) (groupZones batch) := by
  rw [groupZones, List.foldl_append]
  rfl

theorem find_groupZones : find zoneName (groupZones batch) =
    if zoneNodes batch zoneName = ∅ then none else some { nodes := zoneNodes batch zoneName } := by
  induction batch using List.reverseRecOn with
  | nil => rfl
  | append_singleton batch entry ih =>
    rw [groupZones_append, find_upsert]
    by_cases here : entry.2.2 = zoneName
    · have nodes : zoneNodes (batch ++ [entry]) zoneName =
          insert entry.1 (zoneNodes batch zoneName) := by
        ext name
        simp [zoneNodes, here]
      rw [if_pos here, here, ih, nodes,
        if_neg (insert_ne_empty _ _)]
      split
      · next empty =>
        rw [empty]
        rfl
      · rfl
    · have nodes : zoneNodes (batch ++ [entry]) zoneName = zoneNodes batch zoneName := by
        simp [zoneNodes, here]
      rw [if_neg here, ih, nodes]

theorem mem_arrange {order : SetOrder} :
    (zoneName, zone) ∈ arrange order zones ↔ find zoneName zones = some zone := by
  simp only [arrange, List.mem_filterMap, order.mem_toList, List.mem_toFinset,
    Option.map_eq_some_iff, Prod.mk.injEq]
  constructor
  · rintro ⟨_, _, _, found, rfl, rfl⟩
    exact found
  · intro found
    have known : zoneName ∈ keys zones := by
      rw [← find_ne_none_iff, found]
      simp
    exact ⟨zoneName, known, zone, found, rfl, rfl⟩

theorem nodup_arrange {order : SetOrder} :
    (keys (arrange order zones)).Nodup := by
  have keys : keys (arrange order zones) =
      (order.toList (keys zones).toFinset).filterMap fun name =>
        (find name zones).map fun _ => name := by
    rw [keys, arrange, List.map_filterMap]
    congr 1
    funext name
    cases find name zones with
    | none | some zone => rfl
  rw [keys]
  refine (order.nodup _).filterMap ?_
  intro _ _ _ isFirst isSecond
  obtain ⟨_, _, rfl⟩ := Option.map_eq_some_iff.mp isFirst
  obtain ⟨_, _, rfl⟩ := Option.map_eq_some_iff.mp isSecond
  rfl

variable {order : SetOrder} {buffer : Nat} {w : TopologyWrapper}

/-- The zones of the sites that nodes are grouped with. -/
theorem mem_rebuiltZones :
    (zoneName, zone) ∈ rebuiltZones order buffer w ↔
      zoneNodes (batchNodesToPopSites order w) zoneName ≠ ∅ ∧
        zone = freshZone buffer (zoneNodes (batchNodesToPopSites order w) zoneName) := by
  simp only [rebuiltZones, List.mem_map, Prod.mk.injEq]
  constructor
  · rintro ⟨⟨_, _⟩, member, rfl, rfl⟩
    rw [mem_arrange, find_groupZones] at member
    split at member
    · cases member
    · next nonempty =>
      cases member
      exact ⟨nonempty, rfl⟩
  · rintro ⟨nonempty, rfl⟩
    refine ⟨(zoneName, { nodes := zoneNodes (batchNodesToPopSites order w) zoneName }), ?_, rfl, rfl⟩
    rw [mem_arrange, find_groupZones, if_neg nonempty]

theorem noSpaces_rebuiltZones :
    ∀ entry ∈ rebuiltZones order buffer w, entry.2.allocatedPrefixSpaces = ∅ := by
  rintro ⟨_, _⟩ member
  obtain ⟨_, rfl⟩ := mem_rebuiltZones.mp member
  rfl

theorem mem_keys_rebuiltZones :
    zoneName ∈ keys (rebuiltZones order buffer w) ↔
      zoneNodes (batchNodesToPopSites order w) zoneName ≠ ∅ := by
  rw [List.mem_map]
  constructor
  · rintro ⟨⟨_, _⟩, member, rfl⟩
    exact (mem_rebuiltZones.mp member).1
  · intro nonempty
    exact ⟨_, mem_rebuiltZones.mpr ⟨nonempty, rfl⟩, rfl⟩

theorem nodup_rebuiltZones : (keys (rebuiltZones order buffer w)).Nodup := by
  rw [rebuiltZones, keys, List.map_map]
  exact nodup_arrange

theorem groupNodes_append :
    groupNodes (batch ++ [entry]) =
      update (groupNodes batch) entry.1 (some entry.2.2) := by
  rw [groupNodes, List.foldl_append]
  rfl

theorem groupNodes_eq_some_iff (nodup : (keys batch).Nodup) :
    groupNodes batch nodeName = some zoneName ↔ nodeName ∈ zoneNodes batch zoneName := by
  rw [mem_zoneNodes]
  induction batch using List.reverseRecOn with
  | nil => simp [groupNodes]
  | append_singleton batch entry ih =>
    obtain ⟨name, _, _⟩ := entry
    rw [keys, List.map_append, List.nodup_append] at nodup
    have earlier := ih nodup.1
    have apart : ∀ rest, (name, rest) ∉ batch := by
      intro _ member
      exact nodup.2.2 name (List.mem_map.mpr ⟨_, member, rfl⟩) name (by simp) rfl
    rw [groupNodes_append]
    by_cases here : nodeName = name
    · subst here
      simp [apart, eq_comm]
    · rw [update_of_ne here, earlier]
      simp [here]

theorem zone_mem_rebuiltZones
    (zoned : groupNodes (batchNodesToPopSites order w) nodeName = some zoneName) :
    zoneName ∈ keys (rebuiltZones order buffer w) := by
  rw [groupNodes_eq_some_iff (nodup_batchNodesToPopSites order)] at zoned
  exact mem_keys_rebuiltZones.mpr (ne_empty_of_mem zoned)

end Rebuilt

/-! ### The outcomes of a reallocation -/

section Outcomes

variable (net : NetworkUtils) {params : PrefixAllocParams} {order : SetOrder} {buffer : Nat}

/-- The state in which `allocate` starts to allocate zone prefixes. -/
def regrouped (order : SetOrder) (buffer : Nat) (s : AllocState Deterministic) :
    AllocState Deterministic :=
  { s with allocator := {
      zones := rebuiltZones order buffer s.topologyW
      node2Zone := groupNodes (batchNodesToPopSites order s.topologyW) } }

/-- The search for prefix spaces that `allocate` makes. -/
def spaceSearch (params : PrefixAllocParams) (order : SetOrder) (buffer : Nat)
    (w : TopologyWrapper) : Option (Option PrefixZones) :=
  allocatePrefixSpacesHelper (networkPrefixSpace params + 2) (rebuiltZones order buffer w)
    (networkPrefixSpace params)

theorem clearedZones_rebuiltZones (order : SetOrder) (buffer : Nat) (w : TopologyWrapper) :
    clearedZones (rebuiltZones order buffer w) = rebuiltZones order buffer w := by
  calc clearedZones (rebuiltZones order buffer w) = (rebuiltZones order buffer w).map id := by
        apply List.map_congr_left
        rintro ⟨_, _⟩ member
        obtain ⟨_, rfl⟩ := mem_rebuiltZones.mp member
        rfl
    _ = rebuiltZones order buffer w := List.map_id _

theorem run_allocate (s : AllocState Deterministic) :
    (allocate net params order buffer).run s =
      (do allocateZonePrefixes net params order
          allocateNodePrefixes net params order
          writeToConfig net params order : DpaM Unit).run (regrouped order buffer s) :=
  rfl

/-- The search for prefix spaces as the first step of `allocateZonePrefixes`. -/
theorem run_allocatePrefixSpaces (params : PrefixAllocParams) (order : SetOrder) (buffer : Nat)
    (s : AllocState Deterministic) :
    (allocatePrefixSpaces (networkPrefixSpace params)).run (regrouped order buffer s) =
      match spaceSearch params order buffer s.topologyW with
      | none => .error .neverReturns (regrouped order buffer s)
      | some none => .ok () (regrouped order buffer s)
      | some (some zones) => .ok () { regrouped order buffer s with
          allocator := { (regrouped order buffer s).allocator with zones := zones } } := by
  have cleared := clearedZones_rebuiltZones order buffer s.topologyW
  rw [clearedZones] at cleared
  simp only [allocatePrefixSpaces, modifyAllocator, EStateM.run_bind, spaceSearch]
  simp only [EStateM.run, modify, modifyGet, MonadStateOf.modifyGet, EStateM.modifyGet, get,
    getThe, MonadStateOf.get, EStateM.get, regrouped, cleared]
  split
  · next found =>
    rw [found]
    rfl
  · next found =>
    rw [found]
    rfl
  · next found =>
    rw [found]
    rfl

variable {s : AllocState Deterministic}

theorem run_allocate_never (never : spaceSearch params order buffer s.topologyW = none) :
    (allocate net params order buffer).run s =
      .error .neverReturns (regrouped order buffer s) := by
  have spaces := run_allocatePrefixSpaces params order buffer s
  rw [never] at spaces
  rw [run_allocate, run_bind, allocateZonePrefixes, run_bind, spaces]

theorem zoneRequests_eq_nil (noSpaces : ∀ entry ∈ zones, entry.2.allocatedPrefixSpaces = ∅) :
    zoneRequests params order zones = [] := by
  rw [List.eq_nil_iff_forall_not_mem]
  rintro ⟨_, _⟩ requested
  obtain ⟨_, member, isLength⟩ := mem_zoneRequests.mp requested
  rw [noSpaces _ member] at isLength
  simp at isLength

/-- Without a POP site, `allocate` forgets all zones and only writes the config. -/
theorem run_allocate_empty (empty : rebuiltZones order buffer s.topologyW = []) :
    (allocate net params order buffer).run s =
      (writeToConfig net params order).run (regrouped order buffer s) := by
  have failed : spaceSearch params order buffer s.topologyW = some none := by
    rw [spaceSearch, empty]
    rfl
  have spaces := run_allocatePrefixSpaces params order buffer s
  rw [failed] at spaces
  have noZones : (regrouped order buffer s).allocator.zones = [] := empty
  rw [run_allocate, run_bind, allocateZonePrefixes, run_bind, spaces]
  simp only
  rw [run_bind]
  simp only [run_get, noZones]
  change (do allocateNodePrefixes net params order
             writeToConfig net params order : DpaM Unit).run (regrouped order buffer s) = _
  rw [run_bind, allocateNodePrefixes, run_bind, run_get]
  simp only [noZones]
  rfl

theorem run_assignNextPrefix_unplaced {zoneName : String}
    (unplaced : (s.allocator.zone zoneName).allocatedZonePrefixes = ∅) (nodeName : String) :
    (assignNextPrefix net params zoneName nodeName).run s =
      .error (.thrown (.invalidArgument ("No available prefixes to assign to " ++ nodeName)))
        s := by
  have nothing : (getNextUnallocatedPrefix net params (s.allocator.zone zoneName)).run s =
      .ok none s := by
    rw [getNextUnallocatedPrefix, unplaced]
    rfl
  rw [assignNextPrefix, run_bind, run_get]
  simp only
  rw [run_bind, nothing]
  rfl

/-- When the prefix space is too small, the zones are published without prefixes. -/
theorem run_allocate_short (nonempty : rebuiltZones order buffer s.topologyW ≠ [])
    (short : networkPrefixSpace params < totRem (rebuiltZones order buffer s.topologyW)) :
    ∃ what, (allocate net params order buffer).run s =
      .error (.thrown (.invalidArgument what)) { regrouped order buffer s with
        topologyW := published net (rebuiltZones order buffer s.topologyW) s.topologyW } := by
  have failed : spaceSearch params order buffer s.topologyW = some none := helper_short short
  have spaces := run_allocatePrefixSpaces params order buffer s
  rw [failed] at spaces
  -- the first node of the first zone
  obtain ⟨⟨zoneName, zone⟩, _, first⟩ := List.exists_cons_of_ne_nil nonempty
  have member : (zoneName, zone) ∈ rebuiltZones order buffer s.topologyW := by simp [first]
  obtain ⟨hasNodes, rfl⟩ := mem_rebuiltZones.mp member
  obtain ⟨nodeName, later, firstNode⟩ : ∃ nodeName later,
      order.toList (zoneNodes (batchNodesToPopSites order s.topologyW) zoneName) =
        nodeName :: later := by
    apply List.exists_cons_of_ne_nil
    intro empty
    obtain ⟨_, inZone⟩ := nonempty_of_ne_empty hasNodes
    have listed := (order.mem_toList _ _).mpr inZone
    rw [empty] at listed
    cases listed
  have isNonempty : (regrouped order buffer s).allocator.zones.isEmpty = false := by
    change (rebuiltZones order buffer s.topologyW).isEmpty = false
    rw [first]
    rfl
  have placed : (allocateZonePrefixes net params order).run (regrouped order buffer s) =
      .ok () { regrouped order buffer s with
        topologyW := published net (rebuiltZones order buffer s.topologyW) s.topologyW } := by
    have requests : zoneRequests params order (regrouped order buffer s).allocator.zones = [] :=
      zoneRequests_eq_nil noSpaces_rebuiltZones
    rw [allocateZonePrefixes, run_bind, spaces]
    simp only
    rw [run_bind]
    simp only [run_get, isNonempty, requests]
    rfl
  refine ⟨"No available prefixes to assign to " ++ nodeName, ?_⟩
  rw [run_allocate, run_bind, placed]
  simp only
  rw [run_bind, allocateNodePrefixes, run_bind, run_get]
  simp only [regrouped]
  rw [first, List.forM_cons, run_bind]
  simp only [freshZone]
  rw [firstNode, List.forM_cons, run_bind, run_assignNextPrefix_unplaced]
  rw [zone]
  rw [find, if_pos rfl]
  rfl

theorem run_writeZonePrefixes (seedPrefix : CIDRNetwork)
    (known : ∀ nodeName zoneName, s.allocator.node2Zone nodeName = some zoneName →
      zoneName ∈ keys s.allocator.zones) (nodes : List Node) :
    ∃ config, (forM nodes (writeZonePrefixes net order seedPrefix)).run s =
      .ok ⟨⟩ { s with config := config } := by
  have loop : ∃ s', (forM nodes (writeZonePrefixes net order seedPrefix)).run s =
      .ok ⟨⟩ s' ∧ ∃ config, s' = { s with config := config } := by
    refine forM_runs (fun _ t => ∃ config, t = { s with config := config }) ⟨s.config, rfl⟩ ?_
    rintro _ node _ _ t ⟨config, rfl⟩
    rw [writeZonePrefixes]
    split
    · exact ⟨_, rfl, _, rfl⟩
    · rw [run_bind, run_get]
      simp only
      cases zoned : s.allocator.node2Zone node.name with
      | none => exact ⟨_, rfl, config, rfl⟩
      | some zoneName =>
        have kept : upsert {} zoneName id s.allocator.zones = s.allocator.zones :=
          upsert_id (known node.name zoneName zoned)
        refine ⟨_, rfl, setAutoNodeSpecificNetworkPrefixes node.name (some (",".intercalate
          (order.toList (insert (net.networkToString seedPrefix)
            (PrefixZone.getZonePrefixStrings net (s.allocator.zone zoneName)))))) config, ?_⟩
        simp only [kept]
  obtain ⟨_, run, config, rfl⟩ := loop
  exact ⟨config, run⟩

theorem run_writeToConfig
    (known : ∀ nodeName zoneName, s.allocator.node2Zone nodeName = some zoneName →
      zoneName ∈ keys s.allocator.zones) :
    ∃ config, (writeToConfig net params order).run s = .ok () { s with config := config } :=
  run_writeZonePrefixes net params.seedPrefix known s.topologyW.topology.nodes

end Outcomes

/-- What a reallocation with prefix spaces leaves: the zones of the nodes reachable from POP sites,
with room for the buffer, tile the seed prefix, and every node has a prefix of its own. -/
structure Reallocated (net : NetworkUtils) (params : PrefixAllocParams) (order : SetOrder)
    (buffer : Nat) (s s' : AllocState Deterministic) (assigned : String → Option CIDRNetwork) :
    Prop where
  nodup : (keys s'.allocator.zones).Nodup
  keys : ∀ zoneName, zoneName ∈ keys s'.allocator.zones ↔
    zoneNodes (batchNodesToPopSites order s.topologyW) zoneName ≠ ∅
  nodes : ∀ zoneName zone, (zoneName, zone) ∈ s'.allocator.zones →
    zone.nodes = zoneNodes (batchNodesToPopSites order s.topologyW) zoneName
  room : ∀ entry ∈ s'.allocator.zones, entry.2.size + buffer ≤ entry.2.maxSize
  tiled : Tiled params s'.allocator.zones
  node2Zone : s'.allocator.node2Zone = groupNodes (batchNodesToPopSites order s.topologyW)
  topologyW : s'.topologyW =
    withPrefixes net assigned (published net s'.allocator.zones s.topologyW)
  given : ∀ zoneName zone nodeName, (zoneName, zone) ∈ s'.allocator.zones → nodeName ∈ zone.nodes →
    ∃ network ∈ candidates params zone, assigned nodeName = some network
  owned : ∀ nodeName network, assigned nodeName = some network →
    ∃ entry ∈ s'.allocator.zones, nodeName ∈ entry.2.nodes
  registered : ∀ zoneName zone nodeName network, (zoneName, zone) ∈ s'.allocator.zones →
    (zone.allocatedNodePrefixes network = some nodeName ↔
      nodeName ∈ zone.nodes ∧ assigned nodeName = some network)
  distinct : ∀ first second network, assigned first = some network →
    assigned second = some network → first = second

section Found

variable (net : NetworkUtils) {params : PrefixAllocParams} {order : SetOrder} {buffer : Nat}

theorem getRemaining_le_of_totRem (satisfied : totRem zones = 0) {entry : String × PrefixZone}
    (member : entry ∈ zones) : entry.2.getRemaining ≤ 0 := by
  have part : entry.2.getRemaining.toNat ≤ totRem zones :=
    List.single_le_sum (fun _ _ => Nat.zero_le _) _ (List.mem_map.mpr ⟨entry, member, rfl⟩)
  omega

variable {w : TopologyWrapper} {divided : PrefixZones}

theorem division_of_search (found : spaceSearch params order buffer w = some (some divided)) :
    Division (rebuiltZones order buffer w) (networkPrefixSpace params) divided ∧
      Divided params divided := by
  have binary : ∀ entry ∈ rebuiltZones order buffer w, entry.2.Binary := by
    intro entry member _ isSpace
    rw [noSpaces_rebuiltZones entry member] at isSpace
    cases isSpace
  have nothing : sumMaxSize (rebuiltZones order buffer w) = 0 := by
    apply List.sum_eq_zero
    intro _ member
    obtain ⟨entry, inZones, rfl⟩ := List.mem_map.mp member
    rw [PrefixZone.maxSize, noSpaces_rebuiltZones entry inZones, sum_empty]
  have division := helper_found found nodup_rebuiltZones binary
  refine ⟨division, ?_, division.binary, ?_⟩
  · rw [division.same.keys_eq]
    exact nodup_rebuiltZones
  · rw [division.sum, nothing, Nat.zero_add]

variable {zoneName : String}

section

variable (division : Division (rebuiltZones order buffer w) (networkPrefixSpace params) divided)
include division

theorem mem_divided (member : (zoneName, zone) ∈ divided) :
    zone = { freshZone buffer (zoneNodes (batchNodesToPopSites order w) zoneName) with
      allocatedPrefixSpaces := zone.allocatedPrefixSpaces } := by
  have nodup : (keys divided).Nodup := by
    rw [division.same.keys_eq]
    exact nodup_rebuiltZones
  obtain ⟨_, found, zoneEq⟩ := division.same.find ((find_eq_some_iff nodup).mpr member)
  obtain ⟨_, rfl⟩ := mem_rebuiltZones.mp ((find_eq_some_iff nodup_rebuiltZones).mp found)
  exact zoneEq

theorem mem_placedZones (member : (zoneName, zone) ∈ placedZones params order divided) :
    zone.nodes = zoneNodes (batchNodesToPopSites order w) zoneName ∧
      zone.size + buffer ≤ zone.maxSize ∧ zone.allocatedNodePrefixes = fun _ => none := by
  obtain ⟨⟨name, before⟩, inDivided, same⟩ := List.mem_map.mp member
  cases same
  have beforeEq := mem_divided division inDivided
  have nodes : before.nodes = zoneNodes (batchNodesToPopSites order w) name := by
    rw [beforeEq]
    rfl
  have override : before.allocationSizeOverride = (before.nodes.card : Int) + buffer := by
    rw [beforeEq]
    rfl
  have satisfied : before.getRemaining ≤ 0 :=
    getRemaining_le_of_totRem division.satisfied inDivided
  refine ⟨nodes, ?_, ?_⟩
  · change before.nodes.card + buffer ≤ before.maxSize
    rw [PrefixZone.getRemaining, PrefixZone.getAllocationSize]
      at satisfied
    omega
  · rw [beforeEq]
    rfl

theorem keys_placedZones :
    keys (placedZones params order divided) = keys (rebuiltZones order buffer w) := by
  rw [← division.same.keys_eq, placedZones, keys, List.map_map]
  rfl

end

theorem SiteInvariant.published (invariant : SiteInvariant w) (net : NetworkUtils)
    (zones : PrefixZones) : SiteInvariant (published net zones w) :=
  invariant.congr rfl rfl rfl rfl fun _ => rfl

theorem roomy_placedZones (invariant : SiteInvariant w)
    (found : spaceSearch params order buffer w = some (some divided)) :
    Roomy params (published net (placedZones params order divided) w)
      (placedZones params order divided) := by
  obtain ⟨division, isDivided⟩ := division_of_search found
  have tiled : Tiled params (placedZones params order divided) := isDivided.tiled
  have batchNodup := nodup_batchNodesToPopSites order (w := w)
  refine ⟨tiled.toZonesDisjoint, ?_, ?_, ?_, ?_⟩
  · rw [keys_placedZones division]
    exact nodup_rebuiltZones
  · rintro ⟨_, _⟩ member
    have room := (mem_placedZones division member).2.1
    have capacity := tiled.capacity _ member
    simp only at capacity ⊢
    omega
  · rintro ⟨_, _⟩ inOne ⟨_, _⟩ inTwo _ isOne isTwo
    rw [(mem_placedZones division inOne).1, ← groupNodes_eq_some_iff batchNodup] at isOne
    rw [(mem_placedZones division inTwo).1, ← groupNodes_eq_some_iff batchNodup] at isTwo
    exact Option.some.inj (isOne.symm.trans isTwo)
  · rintro ⟨_, _⟩ member nodeName inZone
    rw [(mem_placedZones division member).1, mem_zoneNodes] at inZone
    obtain ⟨_, inBatch⟩ := inZone
    have grouped : nodeName ∈ keys (batchNodesToPopSites order w) :=
      List.mem_map.mpr ⟨_, inBatch, rfl⟩
    obtain ⟨node, isNode, named, _⟩ :=
      (mem_batchNodesToPopSites order invariant nodeName).mp grouped
    exact ⟨node, isNode, named⟩

variable {registered : String → CIDRNetwork → Option String}

theorem mem_withRegistered :
    (zoneName, zone) ∈ withRegistered registered zones ↔ ∃ before, (zoneName, before) ∈ zones ∧
      zone = { before with allocatedNodePrefixes := registered zoneName } := by
  simp only [withRegistered, List.mem_map, Prod.mk.injEq]
  constructor
  · rintro ⟨⟨_, before⟩, member, rfl, rfl⟩
    exact ⟨before, member, rfl⟩
  · rintro ⟨_, member, rfl⟩
    exact ⟨_, member, rfl, rfl⟩

theorem Tiled.withRegistered (tiled : Tiled params zones)
    (registered : String → CIDRNetwork → Option String) :
    Tiled params (withRegistered registered zones) := by
  refine ⟨⟨?_, ?_⟩, ?_, ?_⟩
  · rintro ⟨zoneName, _⟩ member
    obtain ⟨before, inZones, rfl⟩ := mem_withRegistered.mp member
    exact tiled.inSeed (zoneName, before) inZones
  · rintro ⟨one, _⟩ inOne ⟨two, _⟩ inTwo
    obtain ⟨beforeOne, isOne, rfl⟩ := mem_withRegistered.mp inOne
    obtain ⟨beforeTwo, isTwo, rfl⟩ := mem_withRegistered.mp inTwo
    exact tiled.disjoint (one, beforeOne) isOne (two, beforeTwo) isTwo
  · intro x
    rw [tiled.covers]
    constructor
    · rintro ⟨⟨_, zone⟩, member, inside⟩
      exact ⟨_, mem_withRegistered.mpr ⟨zone, member, rfl⟩, inside⟩
    · rintro ⟨⟨_, _⟩, member, inside⟩
      obtain ⟨_, inZones, rfl⟩ := mem_withRegistered.mp member
      exact ⟨_, inZones, inside⟩
  · rintro ⟨zoneName, _⟩ member
    obtain ⟨before, inZones, rfl⟩ := mem_withRegistered.mp member
    exact tiled.capacity (zoneName, before) inZones

theorem thriftZones_withRegistered (registered : String → CIDRNetwork → Option String)
    (zones : PrefixZones) : thriftZones net (withRegistered registered zones) =
      thriftZones net zones := by
  funext zoneName
  rw [thriftZones, find_withRegistered, Option.map_map]
  rfl

/-- The state after the zones have been given their prefixes. -/
def placedState (net : NetworkUtils) (params : PrefixAllocParams) (order : SetOrder) (buffer : Nat)
    (divided : PrefixZones) (s : AllocState Deterministic) : AllocState Deterministic :=
  { regrouped order buffer s with
    topologyW := published net (placedZones params order divided) s.topologyW
    allocator := { (regrouped order buffer s).allocator with
      zones := placedZones params order divided } }

variable {s : AllocState Deterministic}

theorem run_allocateZonePrefixes_regrouped
    (found : spaceSearch params order buffer s.topologyW = some (some divided)) :
    (allocateZonePrefixes net params order).run (regrouped order buffer s) =
      .ok () (placedState net params order buffer divided s) := by
  obtain ⟨division, isDivided⟩ := division_of_search found
  have unplaced : ∀ entry ∈ divided, entry.2.allocatedZonePrefixes = ∅ := by
    rintro ⟨_, _⟩ member
    rw [mem_divided division member]
    rfl
  have searched : allocatePrefixSpacesHelper (networkPrefixSpace params + 2)
      (clearedZones (regrouped order buffer s).allocator.zones) (networkPrefixSpace params) =
        some (some divided) := by
    rw [← found]
    exact congrArg (allocatePrefixSpacesHelper _ · _)
      (clearedZones_rebuiltZones order buffer s.topologyW)
  exact run_allocateZonePrefixes_found net searched isDivided unplaced

theorem Assignment.reallocated (invariant : SiteInvariant s.topologyW)
    (found : spaceSearch params order buffer s.topologyW = some (some divided))
    {assigned : String → Option CIDRNetwork}
    (assignment : Assignment params (placedZones params order divided)
      (zonedNodes order (placedZones params order divided)) assigned registered)
    (config : AutoNodesOverrides) :
    Reallocated net params order buffer s
      { assignedState net (placedZones params order divided)
          (placedState net params order buffer divided s) assigned registered with config }
      assigned := by
  obtain ⟨division, isDivided⟩ := division_of_search found
  have roomy := roomy_placedZones net invariant found
  have keys : keys (withRegistered registered (placedZones params order divided)) =
      keys (rebuiltZones order buffer s.topologyW) := by
    rw [keys_withRegistered, keys_placedZones division]
  refine ⟨?_, ?_, ?_, ?_, ?_, rfl, ?_, ?_, ?_, ?_, ?_⟩
  case refine_1 =>
    exact keys ▸ nodup_rebuiltZones
  case refine_2 =>
    intro zoneName
    exact (iff_of_eq (congrArg (zoneName ∈ ·) keys)).trans mem_keys_rebuiltZones
  case refine_3 =>
    intro _ _ member
    obtain ⟨_, inZones, rfl⟩ := mem_withRegistered.mp member
    exact (mem_placedZones division inZones).1
  case refine_4 =>
    rintro ⟨_, _⟩ member
    obtain ⟨_, inZones, rfl⟩ := mem_withRegistered.mp member
    exact (mem_placedZones division inZones).2.1
  case refine_5 =>
    have tiled : Tiled params (placedZones params order divided) := isDivided.tiled
    exact tiled.withRegistered registered
  case refine_6 =>
    have same := thriftZones_withRegistered net registered (placedZones params order divided)
    simp only [assignedState, placedState, published, same]
  case refine_7 =>
    intro zoneName _ nodeName member inZone
    obtain ⟨before, inZones, rfl⟩ := mem_withRegistered.mp member
    obtain ⟨network, isAssigned, other, isOther, candidate⟩ :=
      assignment.given zoneName nodeName (mem_zonedNodes.mpr ⟨before, inZones, inZone⟩)
    have same : other = before := eq_of_mem roomy.nodup isOther inZones
    exact ⟨network, same ▸ candidate, isAssigned⟩
  case refine_8 =>
    intro nodeName network isAssigned
    obtain ⟨_, isDone⟩ := assignment.owned nodeName network isAssigned
    obtain ⟨zone, member, inZone⟩ := mem_zonedNodes.mp isDone
    exact ⟨_, mem_withRegistered.mpr ⟨zone, member, rfl⟩, inZone⟩
  case refine_9 =>
    intro zoneName _ nodeName network member
    obtain ⟨before, inZones, rfl⟩ := mem_withRegistered.mp member
    have registers := assignment.registers zoneName network nodeName
    have done : (zoneName, nodeName) ∈ zonedNodes order (placedZones params order divided) ↔
        nodeName ∈ before.nodes := by
      rw [mem_zonedNodes]
      constructor
      · rintro ⟨_, isOther, inZone⟩
        exact eq_of_mem roomy.nodup isOther inZones ▸ inZone
      · exact fun inZone => ⟨before, inZones, inZone⟩
    rw [done] at registers
    exact registers
  case refine_10 =>
    intro _ _ _ isFirst isSecond
    exact assignment.injective roomy isFirst isSecond

theorem run_allocate_found (invariant : SiteInvariant s.topologyW)
    (found : spaceSearch params order buffer s.topologyW = some (some divided)) :
    ∃ s' assigned, (allocate net params order buffer).run s = .ok () s' ∧
      Reallocated net params order buffer s s' assigned := by
  obtain ⟨division, _⟩ := division_of_search found
  obtain ⟨assigned, registered, ran, assignment⟩ :
      ∃ assigned registered,
        (allocateNodePrefixes net params order).run
            (placedState net params order buffer divided s) =
          .ok () (assignedState net (placedZones params order divided)
            (placedState net params order buffer divided s) assigned registered) ∧
        Assignment params (placedZones params order divided)
          (zonedNodes order (placedZones params order divided)) assigned registered :=
    run_allocateNodePrefixes net (roomy_placedZones net invariant found)
      (invariant.published net _) fun entry member => (mem_placedZones division member).2.2
  have known : ∀ nodeName zoneName,
      groupNodes (batchNodesToPopSites order s.topologyW) nodeName = some zoneName →
        zoneName ∈ keys
          (withRegistered registered (placedZones params order divided)) := by
    intro _ _ zoned
    rw [keys_withRegistered, keys_placedZones division]
    exact zone_mem_rebuiltZones zoned
  obtain ⟨config, wrote⟩ := run_writeToConfig net
    (s := assignedState net (placedZones params order divided)
      (placedState net params order buffer divided s) assigned registered) known
  refine ⟨_, assigned, ?_, assignment.reallocated net invariant found config⟩
  rw [run_allocate, run_bind, run_allocateZonePrefixes_regrouped net found]
  simp only
  rw [run_bind, ran]
  exact wrote

end Found

/-! ### What a successful reallocation achieves -/

/-- The zone prefixes partition the seed prefix, every zone has room for its nodes and the buffer,
and every node that can be reached from a POP site has one prefix of its zone for itself. -/
structure AllocationCorrect (net : NetworkUtils) (params : PrefixAllocParams) (buffer : Nat)
    (s s' : AllocState Deterministic) : Prop where
  disjoint : ∀ first ∈ s'.allocator.zones, ∀ second ∈ s'.allocator.zones,
    ∀ one ∈ first.2.allocatedZonePrefixes, ∀ two ∈ second.2.allocatedZonePrefixes,
      (first.1 ≠ second.1 ∨ one ≠ two) → ∀ x, ¬ (one.Mem x ∧ two.Mem x)
  covers : ∀ x, params.seedPrefix.Mem x ↔
    ∃ entry ∈ s'.allocator.zones, ∃ zonePrefix ∈ entry.2.allocatedZonePrefixes, zonePrefix.Mem x
  room : ∀ entry ∈ s'.allocator.zones, entry.2.size + buffer ≤ entry.2.capacity params
  nodePrefix : ∀ node ∈ s'.topologyW.topology.nodes, LinkReachable s.topologyW node →
    ∃ zoneName zone network, s'.allocator.node2Zone node.name = some zoneName ∧
      (zoneName, zone) ∈ s'.allocator.zones ∧ node.name ∈ zone.nodes ∧
      node.nodePrefix = some (net.networkToString network) ∧
      (∀ other, zone.allocatedNodePrefixes other = some node.name ↔ other = network) ∧
      network.length = params.allocPrefixLen ∧
      ∃ zonePrefix ∈ zone.allocatedZonePrefixes, ∀ x, network.Mem x → zonePrefix.Mem x
  distinct : ∀ first ∈ s'.topologyW.topology.nodes, ∀ second ∈ s'.topologyW.topology.nodes,
    LinkReachable s.topologyW first → LinkReachable s.topologyW second →
      first.nodePrefix = second.nodePrefix → first.name = second.name

section Success

variable {net : NetworkUtils} {params : PrefixAllocParams} {order : SetOrder} {buffer : Nat}
  {s s' : AllocState Deterministic} {assigned : String → Option CIDRNetwork}

namespace Reallocated

section

variable (done : Reallocated net params order buffer s s' assigned)
include done

theorem node2Zone_eq_some_iff
    {nodeName zoneName : String} : s'.allocator.node2Zone nodeName = some zoneName ↔
      ∃ zone, (zoneName, zone) ∈ s'.allocator.zones ∧ nodeName ∈ zone.nodes := by
  rw [done.node2Zone, groupNodes_eq_some_iff (nodup_batchNodesToPopSites order)]
  constructor
  · intro inZone
    obtain ⟨⟨name, zone⟩, member, rfl⟩ := List.mem_map.mp
      ((done.keys zoneName).mpr (ne_empty_of_mem inZone))
    exact ⟨zone, member, (done.nodes name zone member).symm ▸ inZone⟩
  · rintro ⟨zone, member, inZone⟩
    rw [done.nodes zoneName zone member] at inZone
    exact inZone

theorem exists_zone_iff (invariant : SiteInvariant s.topologyW) {nodeName : String} :
    (∃ zoneName, s'.allocator.node2Zone nodeName = some zoneName) ↔
      ∃ node ∈ s.topologyW.topology.nodes, node.name = nodeName ∧
        NameReachable s.topologyW node := by
  rw [← mem_batchNodesToPopSites order invariant, done.node2Zone, List.mem_map]
  simp only [groupNodes_eq_some_iff (nodup_batchNodesToPopSites order), mem_zoneNodes]
  constructor
  · rintro ⟨_, _, member⟩
    exact ⟨_, member, rfl⟩
  · rintro ⟨⟨_, distance, zoneName⟩, member, rfl⟩
    exact ⟨zoneName, distance, member⟩

theorem assigned_of_zone {zoneName nodeName : String}
    (member : (zoneName, zone) ∈ s'.allocator.zones) (inZone : nodeName ∈ zone.nodes) :
    ∃ network, assigned nodeName = some network ∧
      (∀ other, zone.allocatedNodePrefixes other = some nodeName ↔ other = network) ∧
      network.length = params.allocPrefixLen ∧
      ∃ zonePrefix ∈ zone.allocatedZonePrefixes, ∀ x, network.Mem x → zonePrefix.Mem x := by
  obtain ⟨network, candidate, isAssigned⟩ := done.given zoneName zone nodeName member inZone
  obtain ⟨length, _, contained⟩ := (done.tiled.zone member).candidate candidate
  refine ⟨network, isAssigned, fun other => ?_, length, contained⟩
  rw [done.registered zoneName zone nodeName other member, isAssigned, Option.some.injEq,
    and_iff_right inZone, eq_comm]

variable {node : Node}

theorem mem_nodes (member : node ∈ s'.topologyW.topology.nodes) :
    ∃ before ∈ s.topologyW.topology.nodes, node.name = before.name ∧
      node.siteName = before.siteName ∧
      node.nodePrefix = ((assigned before.name).map net.networkToString).or before.nodePrefix := by
  rw [done.topologyW] at member
  exact mem_withPrefixes member

theorem nodePrefix_eq (member : node ∈ s'.topologyW.topology.nodes) {network : CIDRNetwork}
    (isAssigned : assigned node.name = some network) :
    node.nodePrefix = some (net.networkToString network) := by
  obtain ⟨_, _, named, _, nodePrefix⟩ := done.mem_nodes member
  rw [nodePrefix, ← named, isAssigned]
  rfl

theorem correct (invariant : SiteInvariant s.topologyW)
    (follows : ∀ node ∈ s.topologyW.topology.nodes, LinkReachable s.topologyW node →
      NameReachable s.topologyW node) : AllocationCorrect net params buffer s s' := by
  have located : ∀ node ∈ s'.topologyW.topology.nodes, LinkReachable s.topologyW node →
      ∃ zoneName zone, (zoneName, zone) ∈ s'.allocator.zones ∧ node.name ∈ zone.nodes := by
    intro _ isNode reachable
    obtain ⟨before, isBefore, named, atSite, _⟩ := done.mem_nodes isNode
    have found : NameReachable s.topologyW before := by
      apply follows before isBefore
      rw [LinkReachable, ← atSite]
      exact reachable
    obtain ⟨zoneName, zoned⟩ :=
      (done.exists_zone_iff invariant).mpr ⟨before, isBefore, named.symm, found⟩
    exact ⟨zoneName, done.node2Zone_eq_some_iff.mp zoned⟩
  refine ⟨?_, done.tiled.covers, ?_, ?_, ?_⟩
  · intro first isFirst second isSecond one isOne two isTwo apart x both
    obtain ⟨sameZone, same⟩ :=
      done.tiled.disjoint first isFirst second isSecond one isOne two isTwo x both.1 both.2
    exact apart.elim (absurd sameZone) (absurd same)
  · intro entry member
    rw [done.tiled.capacity entry member]
    exact done.room entry member
  · intro node isNode reachable
    obtain ⟨zoneName, zone, member, inZone⟩ := located node isNode reachable
    obtain ⟨network, isAssigned, registered, length, contained⟩ :=
      done.assigned_of_zone member inZone
    exact ⟨zoneName, zone, network, done.node2Zone_eq_some_iff.mpr ⟨zone, member, inZone⟩, member,
      inZone, done.nodePrefix_eq isNode isAssigned, registered, length, contained⟩
  · intro first isFirst second isSecond firstReachable secondReachable same
    obtain ⟨_, _, inFirst, firstZoned⟩ := located first isFirst firstReachable
    obtain ⟨_, _, inSecond, secondZoned⟩ := located second isSecond secondReachable
    obtain ⟨one, isOne, _⟩ := done.assigned_of_zone inFirst firstZoned
    obtain ⟨_, isTwo, _⟩ := done.assigned_of_zone inSecond secondZoned
    rw [done.nodePrefix_eq isFirst isOne, done.nodePrefix_eq isSecond isTwo] at same
    have sameNetwork := net.networkToString_injective (Option.some.inj same)
    exact done.distinct first.name second.name one isOne (sameNetwork ▸ isTwo)

theorem nameReachable_of_correct
    (invariant : SiteInvariant s.topologyW) (isCorrect : AllocationCorrect net params buffer s s')
    (isNode : node ∈ s.topologyW.topology.nodes) (reachable : LinkReachable s.topologyW node) :
    NameReachable s.topologyW node := by
  obtain ⟨after, isAfter, named, atSite⟩ : ∃ after ∈ s'.topologyW.topology.nodes,
      after.name = node.name ∧ after.siteName = node.siteName := by
    rw [done.topologyW]
    exact exists_mem_withPrefixes isNode
  rw [LinkReachable, ← atSite] at reachable
  obtain ⟨zoneName, _, _, zoned, _⟩ := isCorrect.nodePrefix after isAfter reachable
  obtain ⟨_, isOther, sameName, searched⟩ :=
    (done.exists_zone_iff invariant).mp ⟨zoneName, zoned⟩
  exact List.inj_on_of_nodup_map invariant.nodeIndex.nodup isOther isNode
    (sameName.trans named) ▸ searched

end

end Reallocated

/-- With prefix spaces, `allocate` leaves a correct allocation exactly if every node that can be
reached from a POP site can be reached over links to which their own name leads. -/
theorem allocation_correct_iff (invariant : SiteInvariant s.topologyW) {divided : PrefixZones}
    (found : spaceSearch params order buffer s.topologyW = some (some divided)) :
    (∃ s', (allocate net params order buffer).run s = .ok () s' ∧
      AllocationCorrect net params buffer s s') ↔
      ∀ node ∈ s.topologyW.topology.nodes, LinkReachable s.topologyW node →
        NameReachable s.topologyW node := by
  obtain ⟨s', _, ran, done⟩ := run_allocate_found net invariant found
  constructor
  · rintro ⟨_, ranToo, isCorrect⟩ _ isNode reachable
    cases ran.symm.trans ranToo
    exact done.nameReachable_of_correct invariant isCorrect isNode reachable
  · intro follows
    exact ⟨s', ran, done.correct invariant follows⟩

/-- A seed prefix with room for four node prefixes. -/
def fourPrefixes : PrefixAllocParams where
  seedPrefix :=
    { family := .V6, address := 0, length := 62
      length_le := by decide
      masked := Nat.dvd_zero _
      bounded := Nat.two_pow_pos _ }
  allocPrefixLen := 64
  seed_lt := by decide
  le_bitCount := by decide
  small := by decide

def Deterministic.start (w : TopologyWrapper) : AllocState Deterministic :=
  { topologyW := w, config := fun _ => none, allocator := { zones := [], node2Zone := fun _ => none } }

/-- A POP site with a link to another site. -/
def twoSites : Topology :=
  { sites := [{ name := "S" }, { name := "T" }]
    nodes := [{ name := "a", siteName := "S", popNode := true }, { name := "b", siteName := "T" }]
    links := [{ aNodeName := "a", zNodeName := "b", linkType := .WIRELESS }] }

/-- Both nodes of the two sites are found. -/
theorem allocation_correct_at_two_sites :
    ∃ w, build (.ofCanonical [] (by decide)) .sorted twoSites false [] = .ok w ∧
      ∃ s', (allocate .binary fourPrefixes .sorted 1).run (start w) =
          .ok () s' ∧
        AllocationCorrect .binary fourPrefixes 1 (start w) s' := by
  refine build_exists (fun w =>
      (decide (∀ node ∈ w.topology.nodes,
        node.name ∈ keys (batchNodesToPopSites .sorted w)),
      (spaceSearch fourPrefixes .sorted 1 w).join.isSome)) (true, true) (by decide) ?_
  intro w built seen
  obtain ⟨inBatch, searched⟩ := Prod.mk.inj seen
  have invariant := SiteInvariant.of_runsTo (reachable_of_built built)
  have all := of_decide_eq_true inBatch
  obtain ⟨divided, found⟩ := Option.isSome_iff_exists.mp searched
  have spaces : spaceSearch fourPrefixes .sorted 1 (start w).topologyW =
      some (some divided) := Option.join_eq_some_iff.mp found
  have startInvariant : SiteInvariant (start w).topologyW := invariant
  apply (allocation_correct_iff startInvariant spaces).mpr
  intro node isNode _
  obtain ⟨_, isOther, sameName, reaches⟩ :=
    (mem_batchNodesToPopSites .sorted invariant node.name).mp (all node isNode)
  exact List.inj_on_of_nodup_map invariant.nodeIndex.nodup isOther isNode sameName ▸ reaches

/-- Two links with the name `link-a-b-c`, which leads to the link between `a-b` and `c`: the node
`b-c` is not found from the POP node `a` and gets no prefix. -/
theorem allocation_correct_fails :
    ∃ w, Reachable (.ofCanonical [] (by decide)) w ∧
      (∃ divided, spaceSearch fourPrefixes .sorted 1 w = some (some divided)) ∧
      ¬ ∃ s', (allocate .binary fourPrefixes .sorted 1).run (start w) =
          .ok () s' ∧
        AllocationCorrect .binary fourPrefixes 1 (start w) s' := by
  obtain ⟨w, reached, seen⟩ := reachable_of_build (.ofCanonical [] (by decide)) .sorted
    { sites := [{ name := "S" }, { name := "T" }, { name := "U" }]
      nodes := [{ name := "a", siteName := "S", popNode := true }, { name := "b-c", siteName := "T" },
        { name := "a-b", siteName := "U" }, { name := "c", siteName := "U" }]
      links := [{ aNodeName := "a", zNodeName := "b-c", linkType := .WIRELESS },
        { aNodeName := "a-b", zNodeName := "c", linkType := .ETHERNET }] }
    false []
    (fun w => (decide (∃ node ∈ w.topology.nodes, ∃ nbr ∈ w.topology.nodes, node.siteName ∈
          getPopSiteNames w ∧ nbr.name ∉ keys (batchNodesToPopSites .sorted w) ∧
          ∃ link ∈ w.topology.links, link.aNodeName = node.name ∧ link.zNodeName = nbr.name),
      (spaceSearch fourPrefixes .sorted 1 w).join.isSome)) (true, true) (by decide)
  obtain ⟨linked, searched⟩ := Prod.mk.inj seen
  obtain ⟨node, isNode, nbr, isNbr, isPop, notFound, link, isLink, isA, isZ⟩ :=
    of_decide_eq_true linked
  obtain ⟨divided, found⟩ := Option.isSome_iff_exists.mp searched
  have spaces : spaceSearch fourPrefixes .sorted 1 (start w).topologyW =
      some (some divided) := Option.join_eq_some_iff.mp found
  have invariant : SiteInvariant (start w).topologyW := SiteInvariant.of_runsTo reached
  refine ⟨w, reached, ⟨divided, spaces⟩, ?_⟩
  rintro ⟨_, ran, isCorrect⟩
  obtain ⟨_, _, ranToo, done⟩ := run_allocate_found .binary invariant spaces
  cases ran.symm.trans ranToo
  have adjacent : LinkAdjacent w node.siteName nbr.siteName :=
    ⟨link, isLink, node, isNode, nbr, isNbr, rfl, rfl, .inl ⟨isA, isZ⟩⟩
  have searchedToo := done.nameReachable_of_correct invariant isCorrect isNbr
    ⟨node.siteName, isPop, .single adjacent⟩
  exact notFound ((mem_batchNodesToPopSites .sorted invariant nbr.name).mpr
    ⟨nbr, isNbr, rfl, searchedToo⟩)

end Success

/-! ### What a failed reallocation leaves behind -/

section Failure

variable (net : NetworkUtils) (params : PrefixAllocParams) (order : SetOrder) (buffer : Nat)

/-- The prefixes that the zones need: one for every node grouped with a POP site, and the buffers.
-/
def demand (w : TopologyWrapper) : Nat :=
  (batchNodesToPopSites order w).length +
    buffer * ((batchNodesToPopSites order w).map fun entry => entry.2.2).toFinset.card

/-- `allocate` throws, or it cannot find enough prefix space. -/
def AllocationFails (s s' : AllocState Deterministic) : Prop :=
  (∃ failure, failure ≠ .neverReturns ∧
    (allocate net params order buffer).run s = .error failure s') ∨
  (spaceSearch params order buffer s.topologyW = some none ∧
    (allocate net params order buffer).run s = .ok () s')

/-- The zones stored in the topology, `zones_`, `node2Zone_` and the nodes are the same. -/
structure SameAllocation (s s' : AllocState Deterministic) : Prop where
  topologyZones : s'.topologyW.topology.zones = s.topologyW.topology.zones
  zones : ∀ zoneName, find zoneName s'.allocator.zones =
    find zoneName s.allocator.zones
  node2Zone : s'.allocator.node2Zone = s.allocator.node2Zone
  nodes : s'.topologyW.topology.nodes = s.topologyW.topology.nodes

/-- The nodes are already grouped with their closest POP sites, and no zone has a prefix. -/
structure AlreadyGrouped (s : AllocState Deterministic) : Prop where
  zones : ∀ zoneName, find zoneName s.allocator.zones =
    find zoneName (rebuiltZones order buffer s.topologyW)
  node2Zone : s.allocator.node2Zone = groupNodes (batchNodesToPopSites order s.topologyW)
  topologyZones : getPopSiteNames s.topologyW ≠ ∅ →
    s.topologyW.topology.zones = some (thriftZones net (rebuiltZones order buffer s.topologyW))

variable {net params order buffer} {w : TopologyWrapper}

theorem card_zoneNodes {batch : List (String × Nat × String)}
    (nodup : (keys batch).Nodup) (zoneName : String) :
    (zoneNodes batch zoneName).card = (batch.filter fun entry => entry.2.2 = zoneName).length := by
  rw [zoneNodes, List.toFinset_card_of_nodup, List.length_map]
  exact nodup.sublist (List.filter_sublist.map Prod.fst)

theorem getRemaining_freshZone (nodes : Finset String) :
    (freshZone buffer nodes).getRemaining = ((nodes.card + buffer : Nat) : Int) := by
  have override : (freshZone buffer nodes).allocationSizeOverride = nodes.card + buffer := rfl
  have nothing : (freshZone buffer nodes).maxSize = 0 := sum_empty
  rw [PrefixZone.getRemaining, PrefixZone.getAllocationSize]
  omega

theorem totRem_rebuiltZones : totRem (rebuiltZones order buffer w) = demand order buffer w := by
  have names : (keys (rebuiltZones order buffer w)).toFinset =
      ((batchNodesToPopSites order w).map fun entry => entry.2.2).toFinset := by
    ext zoneName
    rw [List.mem_toFinset, mem_keys_rebuiltZones, ← nonempty_iff_ne_empty]
    simp only [Finset.Nonempty, mem_zoneNodes, List.mem_toFinset, List.mem_map]
    constructor
    · rintro ⟨_, _, member⟩
      exact ⟨_, member, rfl⟩
    · rintro ⟨⟨nodeName, distance, _⟩, member, rfl⟩
      exact ⟨nodeName, distance, member⟩
  have remaining : totRem (rebuiltZones order buffer w) =
      ((keys (rebuiltZones order buffer w)).map fun zoneName =>
        (((batchNodesToPopSites order w).filter fun entry => entry.2.2 = zoneName).map
          fun _ => 1).sum + buffer).sum := by
    rw [totRem, List.map_map]
    congr 1
    apply List.map_congr_left
    rintro ⟨zoneName, _⟩ member
    obtain ⟨_, rfl⟩ := mem_rebuiltZones.mp member
    have card := card_zoneNodes (nodup_batchNodesToPopSites order (w := w)) zoneName
    rw [comp_apply, getRemaining_freshZone, card, List.map_const',
      List.sum_replicate_nat, mul_one]
    rfl
  have grouped : ∀ entry ∈ batchNodesToPopSites order w,
      entry.2.2 ∈ keys (rebuiltZones order buffer w) := by
    intro entry member
    rw [← List.mem_toFinset, names, List.mem_toFinset]
    exact List.mem_map.mpr ⟨entry, member, rfl⟩
  rw [remaining, List.sum_map_add, ← sum_by_key (fun entry => entry.2.2) (fun _ => 1)
    (batchNodesToPopSites order w) nodup_rebuiltZones grouped, demand, ← names,
    List.toFinset_card_of_nodup nodup_rebuiltZones, List.map_const', List.map_const',
    List.sum_replicate_nat, List.sum_replicate_nat, mul_one, mul_comm buffer]

theorem rebuiltZones_eq_nil_iff (invariant : SiteInvariant w) :
    rebuiltZones order buffer w = [] ↔ getPopSiteNames w = ∅ := by
  constructor
  · intro empty
    rw [eq_empty_iff_forall_notMem]
    intro popSiteName isPop
    obtain ⟨popNode, member, atPop⟩ : ∃ node ∈ w.topology.nodes, node.siteName = popSiteName := by
      simp only [getPopSiteNames, List.mem_toFinset, List.mem_map, List.mem_filter] at isPop
      obtain ⟨node, ⟨member, _⟩, atPop⟩ := isPop
      exact ⟨node, member, atPop⟩
    have reached : NameReachable w popNode := ⟨popSiteName, isPop, atPop ▸ .refl⟩
    have grouped := (mem_batchNodesToPopSites order invariant popNode.name).mpr
      ⟨popNode, member, rfl, reached⟩
    obtain ⟨⟨_, distance, zoneName⟩, inBatch, rfl⟩ := List.mem_map.mp grouped
    have inZone := mem_zoneNodes.mpr ⟨distance, inBatch⟩
    have known : zoneName ∈ keys (rebuiltZones order buffer w) :=
      mem_keys_rebuiltZones.mpr (ne_empty_of_mem inZone)
    rw [empty] at known
    cases known
  · intro noPop
    rw [List.eq_nil_iff_forall_not_mem]
    rintro ⟨_, _⟩ member
    obtain ⟨nodeName, inZone⟩ := nonempty_of_ne_empty (mem_rebuiltZones.mp member).1
    obtain ⟨_, inBatch⟩ := mem_zoneNodes.mp inZone
    obtain ⟨_, _, _, _, isPop, _⟩ := (mem_batchNodesToPopSites order invariant nodeName).mp
      (List.mem_map.mpr ⟨_, inBatch, rfl⟩)
    rw [noPop] at isPop
    cases isPop

/-- The state in which a failed reallocation ends. -/
def failedState (net : NetworkUtils) (order : SetOrder) (buffer : Nat)
    (s : AllocState Deterministic) (config : AutoNodesOverrides) : AllocState Deterministic :=
  { regrouped order buffer s with
    topologyW := if getPopSiteNames s.topologyW = ∅ then s.topologyW
      else published net (rebuiltZones order buffer s.topologyW) s.topologyW
    config := config }

theorem SiteInvariant.failedState {s : AllocState Deterministic}
    (invariant : SiteInvariant s.topologyW) (net : NetworkUtils) (order : SetOrder) (buffer : Nat)
    (config : AutoNodesOverrides) :
    SiteInvariant (failedState net order buffer s config).topologyW := by
  rw [Terragraph.failedState]
  split
  · exact invariant
  · exact invariant.published net _

theorem spaceSearch_fails_iff (invariant : SiteInvariant w) :
    spaceSearch params order buffer w = some none ↔
      getPopSiteNames w = ∅ ∨ networkPrefixSpace params < demand order buffer w := by
  constructor
  · intro failed
    by_contra both
    rw [not_or, not_lt, ← totRem_rebuiltZones] at both
    have nonempty : rebuiltZones order buffer w ≠ [] :=
      (rebuiltZones_eq_nil_iff invariant).not.mpr both.1
    exact helper_finds nonempty both.2 failed rfl
  · rintro (noPop | short)
    · rw [spaceSearch, (rebuiltZones_eq_nil_iff invariant).mpr noPop]
      rfl
    · exact helper_short (totRem_rebuiltZones ▸ short)

/-- `allocate` does not return, has no POP site or too little space, or succeeds. -/
inductive AllocateOutcome (net : NetworkUtils) (params : PrefixAllocParams) (order : SetOrder)
    (buffer : Nat) (s : AllocState Deterministic) :
    EStateM.Result AllocFailure (AllocState Deterministic) Unit → Prop
  | never (t : AllocState Deterministic) (hasPop : getPopSiteNames s.topologyW ≠ ∅)
      (fits : demand order buffer s.topologyW ≤ networkPrefixSpace params) :
      AllocateOutcome net params order buffer s (.error .neverReturns t)
  | noPop (config : AutoNodesOverrides) (none : getPopSiteNames s.topologyW = ∅) :
      AllocateOutcome net params order buffer s (.ok () (failedState net order buffer s config))
  | short (what : String) (hasPop : getPopSiteNames s.topologyW ≠ ∅)
      (exceeded : networkPrefixSpace params < demand order buffer s.topologyW) :
      AllocateOutcome net params order buffer s
        (.error (.thrown (.invalidArgument what)) (failedState net order buffer s s.config))
  | found (s' : AllocState Deterministic) (assigned : String → Option CIDRNetwork)
      (hasPop : getPopSiteNames s.topologyW ≠ ∅)
      (fits : demand order buffer s.topologyW ≤ networkPrefixSpace params)
      (done : Reallocated net params order buffer s s' assigned) :
      AllocateOutcome net params order buffer s (.ok () s')

variable {s : AllocState Deterministic}

theorem allocate_outcome (net : NetworkUtils) (params : PrefixAllocParams) (order : SetOrder)
    (buffer : Nat) (invariant : SiteInvariant s.topologyW) :
    AllocateOutcome net params order buffer s
      ((allocate net params order buffer).run s) := by
  have emptyIff : rebuiltZones order buffer s.topologyW = [] ↔ getPopSiteNames s.topologyW = ∅ :=
    rebuiltZones_eq_nil_iff invariant
  by_cases noPop : getPopSiteNames s.topologyW = ∅
  · obtain ⟨config, wrote⟩ := run_writeToConfig net (s := regrouped order buffer s)
      fun _ _ => zone_mem_rebuiltZones
    have ended : failedState net order buffer s config =
        { regrouped order buffer s with config := config } := by
      rw [failedState, if_pos noPop]
      rfl
    rw [run_allocate_empty net (emptyIff.mpr noPop), wrote, ← ended]
    exact .noPop config noPop
  by_cases exceeded : networkPrefixSpace params < demand order buffer s.topologyW
  · obtain ⟨what, ran⟩ := run_allocate_short net (emptyIff.not.mpr noPop)
      (totRem_rebuiltZones ▸ exceeded)
    have ended : failedState net order buffer s s.config = { regrouped order buffer s with
        topologyW := published net (rebuiltZones order buffer s.topologyW) s.topologyW } := by
      rw [failedState, if_neg noPop]
      rfl
    rw [ran, ← ended]
    exact .short what noPop exceeded
  · have fits := not_lt.mp exceeded
    cases searched : spaceSearch params order buffer s.topologyW with
    | none =>
      rw [run_allocate_never net searched]
      exact .never _ noPop fits
    | some result =>
      cases result with
      | none =>
        have fails := (spaceSearch_fails_iff invariant).mp searched
        exact absurd fails (not_or.mpr ⟨noPop, exceeded⟩)
      | some =>
        obtain ⟨s', assigned, ran, done⟩ := run_allocate_found net invariant searched
        rw [ran]
        exact .found s' assigned noPop fits done

/-- When a reallocation fails, and what it leaves behind. -/
theorem allocationFails_iff (net : NetworkUtils) (params : PrefixAllocParams) (order : SetOrder)
    (buffer : Nat) (invariant : SiteInvariant s.topologyW) :
    ∃ config, ∀ s', AllocationFails net params order buffer s s' ↔
      (getPopSiteNames s.topologyW = ∅ ∨
        networkPrefixSpace params < demand order buffer s.topologyW) ∧
      s' = failedState net order buffer s config := by
  have outcome := allocate_outcome net params order buffer invariant
  have searched : spaceSearch params order buffer s.topologyW = some none ↔ _ :=
    spaceSearch_fails_iff invariant
  simp only [AllocationFails, ← searched]
  generalize (allocate net params order buffer).run s = result at outcome
  cases outcome with
  | noPop config =>
    refine ⟨config, fun s' => ?_⟩
    simp [eq_comm]
  | short _ _ exceeded =>
    refine ⟨s.config, fun s' => ?_⟩
    simp [searched.mpr (.inr exceeded), eq_comm]
  | never t hasPop fits | found t assigned hasPop fits done =>
    refine ⟨s.config, fun s' => ?_⟩
    have found : ¬ spaceSearch params order buffer s.topologyW = some none := by
      rw [searched, not_or, not_lt]
      exact ⟨hasPop, fits⟩
    simp [found]

theorem sameAllocation_failedState_iff {config : AutoNodesOverrides} :
    SameAllocation s (failedState net order buffer s config) ↔
      AlreadyGrouped net order buffer s := by
  constructor
  · intro same
    refine ⟨fun zoneName => (same.zones zoneName).symm, same.node2Zone.symm, fun hasPop => ?_⟩
    have zones := same.topologyZones
    rw [failedState, if_neg hasPop] at zones
    exact zones.symm
  · intro grouped
    refine ⟨?_, fun zoneName => (grouped.zones zoneName).symm, grouped.node2Zone.symm, ?_⟩
    · rw [failedState]
      split
      · rfl
      · next hasPop => exact (grouped.topologyZones hasPop).symm
    · rw [failedState]
      split
      · rfl
      · rfl

theorem visitQueue_published (zones : PrefixZones) (rounds : Nat) (found : Distances) :
    visitQueue order (published net zones w) rounds found = visitQueue order w rounds found := by
  induction rounds generalizing found with
  | zero => rfl
  | succ rounds ih =>
    unfold visitQueue
    split
    · rfl
    · exact ih _

/-- The zones of the topology have no part in the search for the closest POP sites. -/
theorem batchNodesToPopSites_failedState (net : NetworkUtils) (order : SetOrder) (buffer : Nat)
    (config : AutoNodesOverrides) :
    batchNodesToPopSites order (failedState net order buffer s config).topologyW =
      batchNodesToPopSites order s.topologyW := by
  rw [failedState]
  split
  · rfl
  · have distances (zones : PrefixZones) :
        getNodeDistancesFromPopSite order (published net zones s.topologyW) =
          getNodeDistancesFromPopSite order s.topologyW := by
      funext popSiteName
      unfold getNodeDistancesFromPopSite
      simp only [visitQueue_published]
      rfl
    unfold batchNodesToPopSites
    rw [distances]
    rfl

/-- A failed reallocation leaves the nodes grouped. -/
theorem alreadyGrouped_failedState (net : NetworkUtils) (order : SetOrder) (buffer : Nat)
    (config : AutoNodesOverrides) (hasPop : getPopSiteNames s.topologyW ≠ ∅) :
    AlreadyGrouped net order buffer (failedState net order buffer s config) := by
  have zones : rebuiltZones order buffer (failedState net order buffer s config).topologyW =
      rebuiltZones order buffer s.topologyW := by
    rw [rebuiltZones, batchNodesToPopSites_failedState, rebuiltZones]
  refine ⟨fun _ => ?_, ?_, fun _ => ?_⟩
  · rw [zones]
    rfl
  · rw [batchNodesToPopSites_failedState]
    rfl
  · rw [zones, failedState, if_neg hasPop]
    rfl

/-- A failed reallocation leaves everything as it was exactly if it cannot fail, or an earlier one
has left the same zones without prefixes. -/
theorem reallocation_all_or_nothing_iff {s : AllocState Deterministic}
    (invariant : SiteInvariant s.topologyW) :
    (∀ s', AllocationFails net params order buffer s s' → SameAllocation s s') ↔
      (getPopSiteNames s.topologyW ≠ ∅ ∧
        demand order buffer s.topologyW ≤ 2 ^ (params.allocPrefixLen - params.seedPrefix.length)) ∨
      AlreadyGrouped net order buffer s := by
  obtain ⟨_, fails⟩ := allocationFails_iff net params order buffer invariant
  rw [← networkPrefixSpace_eq]
  constructor
  · intro unchanged
    by_cases safe : getPopSiteNames s.topologyW ≠ ∅ ∧
        demand order buffer s.topologyW ≤ networkPrefixSpace params
    · exact .inl safe
    · refine .inr (sameAllocation_failedState_iff.mp (unchanged _ ((fails _).mpr ⟨?_, rfl⟩)))
      rw [not_and_or, not_not, not_le] at safe
      exact safe
  · rintro (⟨hasPop, fits⟩ | grouped) s' failed
    · rcases ((fails s').mp failed).1 with noPop | short
      · exact absurd noPop hasPop
      · exact absurd short (not_lt.mpr fits)
    · rw [((fails s').mp failed).2]
      exact sameAllocation_failedState_iff.mpr grouped

def popSite : Topology :=
  { sites := [{ name := "S" }], nodes := [{ name := "a", siteName := "S", popNode := true }] }

/-- One node and a buffer of seven need eight of the four prefixes: the first attempt fails, and so
does a second one, which leaves everything as it is. -/
theorem reallocation_all_or_nothing_after_failure :
    ∃ w, build (.ofCanonical [] (by decide)) .sorted popSite false [] = .ok w ∧
      ∃ what s, (allocate .binary fourPrefixes .sorted 7).run (start w) =
          .error (.thrown (.invalidArgument what)) s ∧
        (∃ s', AllocationFails .binary fourPrefixes .sorted 7 s s') ∧
        ∀ s', AllocationFails .binary fourPrefixes .sorted 7 s s' → SameAllocation s s' := by
  refine build_exists (fun w => (decide (getPopSiteNames w ≠ ∅), demand .sorted 7 w)) (true, 8)
    (by decide) ?_
  intro w built seen
  have sites : SiteInvariant (start w).topologyW :=
    SiteInvariant.of_runsTo (reachable_of_built built)
  have hasPop : getPopSiteNames (start w).topologyW ≠ ∅ :=
    of_decide_eq_true (congrArg Prod.fst seen)
  have eight : demand .sorted 7 w = 8 := congrArg Prod.snd seen
  have short : networkPrefixSpace fourPrefixes < demand .sorted 7 w := by
    rw [networkPrefixSpace_eq, eight]
    decide
  have outcome := allocate_outcome .binary fourPrefixes .sorted 7 sites
  generalize ran : (allocate .binary fourPrefixes .sorted 7).run (start w) = result at outcome
  cases outcome with
  | never _ _ fits | found _ _ _ fits => exact absurd short (not_lt.mpr fits)
  | noPop _ none => exact absurd none hasPop
  | short what =>
    have sites' := sites.failedState .binary .sorted 7 (start w).config
    have grouped := alreadyGrouped_failedState .binary .sorted 7 (start w).config hasPop
    refine ⟨what, _, rfl, ?_, (reallocation_all_or_nothing_iff sites').mpr (.inr grouped)⟩
    obtain ⟨_, fails⟩ := allocationFails_iff .binary fourPrefixes .sorted 7 sites'
    refine ⟨_, (fails _).mpr ⟨.inr ?_, rfl⟩⟩
    rwa [demand, batchNodesToPopSites_failedState]

/-- What a failed allocation says, and whether zones were published before and after it. -/
def failedAllocation (w : TopologyWrapper) : Option (String × Bool × Bool) :=
  match (allocate .binary fourPrefixes .sorted 7).run (start w) with
  | .error (.thrown (.invalidArgument what)) s' =>
    some (what, w.topology.zones.isSome, s'.topologyW.topology.zones.isSome)
  | _ => none

/-- With a buffer of seven there is too little space, and the zones are published all the same. -/
theorem reallocation_all_or_nothing_fails :
    ∃ w, Reachable (.ofCanonical [] (by decide)) w ∧
      ∃ what s', (allocate .binary fourPrefixes .sorted 7).run
          (start w) = .error (.thrown (.invalidArgument what)) s' ∧
        ¬ SameAllocation (start w) s' := by
  obtain ⟨w, reached, seen⟩ := reachable_of_build (.ofCanonical [] (by decide)) .sorted popSite
    false [] failedAllocation (some ("No available prefixes to assign to a", false, true)) (by decide)
  refine ⟨w, reached, ?_⟩
  unfold failedAllocation at seen
  split at seen
  · next what s' thrown =>
    simp only [Option.some.injEq, Prod.mk.injEq] at seen
    refine ⟨what, s', thrown, ?_⟩
    intro same
    have published : s'.topologyW.topology.zones.isSome = true := seen.2.2
    have absent : w.topology.zones.isSome = false := seen.2.1
    rw [same.topologyZones] at published
    exact Bool.noConfusion (absent.symm.trans published)
  · cases seen

end Failure

end Terragraph
