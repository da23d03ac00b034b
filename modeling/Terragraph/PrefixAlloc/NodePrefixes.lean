/-
Module: Terragraph.PrefixAlloc.NodePrefixes
Purpose: The assignment of node prefixes.
Trusted boundary: none
Main exports: candidates, run_allocateNodePrefixes
-/
import Terragraph.PrefixAlloc.ZonePrefixes

namespace Terragraph

open Guarded AssocList Function List EStateM TopologyWrapper

/-! ### The candidates of a zone -/

variable (params : PrefixAllocParams)

def candidates (zone : PrefixZone) : List CIDRNetwork :=
  (Ascending.listing zone.allocatedZonePrefixes).flatMap fun zonePrefix =>
    (range (widthOf params zonePrefix.length)).map (zonePrefix.subnetAt params.allocPrefixLen)

/-- The zone prefixes are part of the address space of the seed prefix and do not overlap. -/
structure ZonePrefixesOk (zone : PrefixZone) : Prop where
  inSeed : ∀ zonePrefix ∈ zone.allocatedZonePrefixes,
    zonePrefix.family = params.seedPrefix.family ∧ zonePrefix.length ≤ params.allocPrefixLen
  disjoint : ∀ one ∈ zone.allocatedZonePrefixes, ∀ two ∈ zone.allocatedZonePrefixes, ∀ x,
    one.Mem x → two.Mem x → one = two

variable {zones : PrefixZones} {entry : String × PrefixZone}

theorem ZonesDisjoint.zone {params : PrefixAllocParams} (apart : ZonesDisjoint params zones)
    (member : entry ∈ zones) : ZonePrefixesOk params entry.2 where
  inSeed := apart.inSeed entry member
  disjoint one isOne two isTwo x here there :=
    (apart.disjoint entry member entry member one isOne two isTwo x here there).2

variable {network : CIDRNetwork}

section Candidates

variable {params} {zone : PrefixZone}

theorem ZonePrefixesOk.hasSubnet (ok : ZonePrefixesOk params zone) {zonePrefix : CIDRNetwork}
    (isPrefix : zonePrefix ∈ zone.allocatedZonePrefixes) {i : Nat}
    (within : i < widthOf params zonePrefix.length) :
    zonePrefix.HasSubnet params.allocPrefixLen i := by
  obtain ⟨family, shorter⟩ := ok.inSeed zonePrefix isPrefix
  refine ⟨shorter, ?_, within⟩
  rw [family]
  exact params.le_bitCount

theorem mem_candidates :
    network ∈ candidates params zone ↔ ∃ zonePrefix ∈ zone.allocatedZonePrefixes,
      ∃ i < widthOf params zonePrefix.length,
        zonePrefix.subnetAt params.allocPrefixLen i = network := by
  simp only [candidates, mem_flatMap, Ascending.mem_listing, mem_map, mem_range]

theorem ZonePrefixesOk.candidate (ok : ZonePrefixesOk params zone)
    (candidate : network ∈ candidates params zone) :
    network.length = params.allocPrefixLen ∧ network.family = params.seedPrefix.family ∧
      ∃ zonePrefix ∈ zone.allocatedZonePrefixes, ∀ x, network.Mem x → zonePrefix.Mem x := by
  obtain ⟨zonePrefix, isPrefix, i, within, rfl⟩ := mem_candidates.mp candidate
  have has := ok.hasSubnet isPrefix within
  rw [Cidr.Network.subnetAt_eq has]
  exact ⟨rfl, (ok.inSeed zonePrefix isPrefix).1, zonePrefix, isPrefix,
    fun x => Cidr.Network.mem_of_mem_subnet has⟩

theorem ZonePrefixesOk.nodup_candidates (ok : ZonePrefixesOk params zone) :
    (candidates params zone).Nodup := by
  refine nodup_flatMap.mpr ⟨?_, ?_⟩
  · intro _ isPrefix
    refine nodup_range.map_on ?_
    intro i inI j inJ same
    have isPrefix := Ascending.mem_listing.mp isPrefix
    have hasI := ok.hasSubnet isPrefix (mem_range.mp inI)
    have hasJ := ok.hasSubnet isPrefix (mem_range.mp inJ)
    rw [Cidr.Network.subnetAt_eq hasI, Cidr.Network.subnetAt_eq hasJ] at same
    exact Cidr.Network.subnet_injective hasI hasJ same
  · refine List.Pairwise.imp_of_mem ?_ (Ascending.nodup_listing _)
    intro one two isOne isTwo apart _ inOne inTwo
    have isOne := Ascending.mem_listing.mp isOne
    have isTwo := Ascending.mem_listing.mp isTwo
    obtain ⟨i, inI, rfl⟩ := mem_map.mp inOne
    obtain ⟨j, inJ, same⟩ := mem_map.mp inTwo
    have hasI := ok.hasSubnet isOne (mem_range.mp inI)
    have hasJ := ok.hasSubnet isTwo (mem_range.mp inJ)
    rw [Cidr.Network.subnetAt_eq hasI, Cidr.Network.subnetAt_eq hasJ] at same
    have inside := (one.subnet params.allocPrefixLen i hasI).mem_address
    have inFirst := Cidr.Network.mem_of_mem_subnet hasI inside
    exact apart (ok.disjoint one isOne two isTwo _ inFirst
      (Cidr.Network.mem_of_mem_subnet hasJ (same ▸ inside)))

theorem length_candidates : (candidates params zone).length = zone.capacity params := by
  rw [candidates, length_flatMap, ← sum_toFinset _ (Ascending.nodup_listing _)]
  apply Finset.sum_congr
  · ext zonePrefix
    simp
  · intro zonePrefix _
    simp

/-- The next prefix of a zone is its first candidate that is not allocated. -/
theorem run_getNextUnallocatedPrefix (net : NetworkUtils)
    (inSeed : ∀ zonePrefix ∈ zone.allocatedZonePrefixes,
      zonePrefix.family = params.seedPrefix.family ∧ zonePrefix.length ≤ params.allocPrefixLen)
    (s : AllocState Deterministic) :
    (getNextUnallocatedPrefix net params zone).run s =
      .ok ((candidates params zone).find? (zone.allocatedNodePrefixes · = none)) s := by
  have listed : ∀ zonePrefix ∈ Ascending.listing zone.allocatedZonePrefixes,
      zonePrefix ∈ zone.allocatedZonePrefixes := fun _ => Ascending.mem_listing.mp
  rw [getNextUnallocatedPrefix, candidates]
  generalize Ascending.listing zone.allocatedZonePrefixes = sortedZonePrefixes at listed ⊢
  induction sortedZonePrefixes with
  | nil => rfl
  | cons zonePrefix _ ih =>
    obtain ⟨family, shorter⟩ := inSeed zonePrefix (listed zonePrefix (by simp))
    have width : networkToPrefixSpace zonePrefix params.allocPrefixLen =
        widthOf params zonePrefix.length := networkToPrefixSpace_eq _ _
    have scanned := run_firstUnallocated (s := s) net
      zone.allocatedNodePrefixes shorter (by rw [family]; exact params.le_bitCount)
      (show 0 + widthOf params zonePrefix.length ≤ _ by rw [Nat.zero_add]; exact le_rfl)
    rw [scanZonePrefixes, width, run_bind, scanned, flatMap_cons, find?_append, range_eq_range']
    cases ((range' 0 (widthOf params zonePrefix.length)).map
        (zonePrefix.subnetAt params.allocPrefixLen)).find?
        (zone.allocatedNodePrefixes · = none) with
    | some => rfl
    | none =>
      exact ih fun other member => listed other (by simp [member])

theorem exists_free_candidate (ok : ZonePrefixesOk params zone) {owners : Finset String}
    (few : owners.card < zone.capacity params)
    (owned : ∀ network ∈ candidates params zone, ∀ nodeName,
      zone.allocatedNodePrefixes network = some nodeName → nodeName ∈ owners)
    (single : ∀ one two nodeName, zone.allocatedNodePrefixes one = some nodeName →
      zone.allocatedNodePrefixes two = some nodeName → one = two) :
    ∃ network ∈ candidates params zone, zone.allocatedNodePrefixes network = none ∧
      (candidates params zone).find? (zone.allocatedNodePrefixes · = none) = some network := by
  cases found : (candidates params zone).find? (zone.allocatedNodePrefixes · = none) with
  | some network =>
    have free := find?_some found
    exact ⟨network, mem_of_find?_eq_some found, by simpa using free, rfl⟩
  | none =>
    -- otherwise every candidate has an owner of its own
    have taken : ∀ network ∈ candidates params zone,
        ∃ nodeName, zone.allocatedNodePrefixes network = some nodeName := by
      intro network candidate
      have allocated := find?_eq_none.mp found network candidate
      exact Option.ne_none_iff_exists'.mp (by simpa using allocated)
    have counted : (candidates params zone).toFinset.card ≤ owners.card := by
      refine Finset.card_le_card_of_injOn
        (fun network => (zone.allocatedNodePrefixes network).getD "") ?_ ?_
      · intro network candidate
        have candidate := mem_toFinset.mp candidate
        obtain ⟨nodeName, allocated⟩ := taken network candidate
        simpa [allocated] using owned network candidate nodeName allocated
      · intro one isOne two isTwo same
        obtain ⟨first, allocatedOne⟩ := taken one (mem_toFinset.mp isOne)
        obtain ⟨second, allocatedTwo⟩ := taken two (mem_toFinset.mp isTwo)
        have names : first = second := by simpa [allocatedOne, allocatedTwo] using same
        exact single one two first allocatedOne (names ▸ allocatedTwo)
    rw [toFinset_card_of_nodup ok.nodup_candidates, length_candidates] at counted
    exact absurd few (not_lt.mpr counted)

end Candidates

/-! ### Prefixes of nodes -/

variable {node : Node}

theorem run_setNodePrefix {w : TopologyWrapper} (invariant : SiteInvariant w)
    (member : node ∈ w.topology.nodes) (nodePrefix : Option String) :
    (setNodePrefix node.name nodePrefix).run w =
      .ok () (w.withNodes (w.topology.nodes.map fun other =>
        if other.name = node.name then { other with nodePrefix } else other)) := by
  obtain ⟨i, present⟩ := mem_iff_getElem?.mp member
  have stored := invariant.nodeIndex.index_eq present
  have written := invariant.nodeIndex.modify_eq_map stored fun other => { other with nodePrefix }
  rw [← written]
  refine Eq.trans (run_check_bind (a := (i, node)) ?_) rfl
  exact nodeRef_eq_ok.mpr ⟨stored, present⟩

/-- The topology with the given prefixes entered into its nodes. -/
def withPrefixes (net : NetworkUtils) (assigned : String → Option CIDRNetwork)
    (w : TopologyWrapper) : TopologyWrapper :=
  w.withNodes (w.topology.nodes.map fun node =>
    match assigned node.name with
    | some network => { node with nodePrefix := some (net.networkToString network) }
    | none => node)

def withRegistered (registered : String → CIDRNetwork → Option String) (zones : PrefixZones) :
    PrefixZones :=
  zones.map fun entry => (entry.1, { entry.2 with allocatedNodePrefixes := registered entry.1 })

section Entering

variable (net : NetworkUtils) (assigned : String → Option CIDRNetwork) {w : TopologyWrapper}

theorem withPrefixes_placement : (withPrefixes net assigned w).topology.nodes.map placement =
      w.topology.nodes.map placement := by
  rw [withPrefixes, withNodes, map_map]
  apply map_congr_left
  intro node _
  rw [comp_apply]
  split
  · rfl
  · rfl

theorem SiteInvariant.withPrefixes (invariant : SiteInvariant w) :
    SiteInvariant (withPrefixes net assigned w) :=
  invariant.congr (withPrefixes_placement net assigned) rfl rfl rfl fun _ => rfl

section Members

variable {net assigned}

theorem mem_withPrefixes (member : node ∈ (withPrefixes net assigned w).topology.nodes) :
    ∃ before ∈ w.topology.nodes, node.name = before.name ∧ node.siteName = before.siteName ∧
      node.nodePrefix = ((assigned before.name).map net.networkToString).or before.nodePrefix := by
  obtain ⟨before, isBefore, rfl⟩ := mem_map.mp member
  refine ⟨before, isBefore, ?_⟩
  cases assigned before.name with
  | none | some network => exact ⟨rfl, rfl, rfl⟩

theorem exists_mem_withPrefixes {before : Node} (member : before ∈ w.topology.nodes) :
    ∃ node ∈ (withPrefixes net assigned w).topology.nodes, node.name = before.name ∧
      node.siteName = before.siteName := by
  refine ⟨_, mem_map.mpr ⟨before, member, rfl⟩, ?_⟩
  cases assigned before.name with
  | none | some network => exact ⟨rfl, rfl⟩

end Members

theorem run_setNodePrefix_withPrefixes (invariant : SiteInvariant w)
    (member : node ∈ w.topology.nodes) (network : CIDRNetwork) :
    (setNodePrefix node.name (some (net.networkToString network))).run
        (withPrefixes net assigned w) =
      .ok () (withPrefixes net (update assigned node.name (some network)) w) := by
  obtain ⟨other, isOther, sameName, _⟩ : ∃ other ∈ (withPrefixes net assigned w).topology.nodes, _ :=
    exists_mem_withPrefixes member
  rw [← sameName, run_setNodePrefix (invariant.withPrefixes net assigned) isOther, sameName]
  congr 1
  unfold Terragraph.withPrefixes withNodes
  simp only [map_map]
  congr 2
  apply map_congr_left
  intro each _
  rw [comp_apply]
  by_cases here : each.name = node.name
  · rw [here, update_self]
    split
    · simp
    · simp [here]
  · rw [update_of_ne here]
    split
    · simp [here]
    · simp [here]

theorem withPrefixes_none : withPrefixes net (fun _ => none) w = w := by
  have same : w.topology.nodes.map (fun node => node) = w.topology.nodes := map_id _
  rw [Terragraph.withPrefixes, withNodes, same]

theorem run_setNodePrefix_once (invariant : SiteInvariant w)
    (member : node ∈ w.topology.nodes) (network : CIDRNetwork) :
    (setNodePrefix node.name (some (net.networkToString network))).run w =
      .ok () (withPrefixes net (update (fun _ => none) node.name (some network)) w) := by
  have entered := run_setNodePrefix_withPrefixes net (fun _ => none) invariant member network
  rw [withPrefixes_none] at entered
  exact entered

end Entering

theorem keys_withRegistered (registered : String → CIDRNetwork → Option String)
    (zones : PrefixZones) :
    keys (withRegistered registered zones) = keys zones := by
  rw [withRegistered, AssocList.keys, map_map]
  rfl

variable {registered : String → CIDRNetwork → Option String}

theorem find_withRegistered {zoneName : String} :
    find zoneName (withRegistered registered zones) = (find zoneName zones).map fun zone =>
        { zone with allocatedNodePrefixes := registered zoneName } := by
  induction zones with
  | nil => rfl
  | cons entry _ ih =>
    obtain ⟨name, _⟩ := entry
    rw [withRegistered, map_cons, find, find]
    by_cases here : name = zoneName
    · rw [if_pos here, if_pos here, here]
      rfl
    · rw [if_neg here, if_neg here]
      exact ih

theorem upsert_withRegistered (nodup : (keys zones).Nodup) {zoneName : String}
    (present : zoneName ∈ keys zones) (nodeName : String) (network : CIDRNetwork) :
    upsert {} zoneName (·.assignNodePrefix nodeName network) (withRegistered registered zones) =
      withRegistered (update registered zoneName
        (update (registered zoneName) network (some nodeName))) zones := by
  have keys := keys_withRegistered registered zones
  rw [upsert_eq_map (keys ▸ nodup) (keys ▸ present), withRegistered, map_map]
  apply map_congr_left
  intro entry _
  rw [comp_apply]
  by_cases here : entry.1 = zoneName
  · rw [if_pos here, here, update_self]
    rfl
  · rw [if_neg here, update_of_ne here]

/-! ### The loop over all nodes -/

/-- Zones with room for their nodes, in a topology with these nodes. -/
structure Roomy (w : TopologyWrapper) (zones : PrefixZones) : Prop
    extends ZonesDisjoint params zones where
  nodup : (keys zones).Nodup
  room : ∀ entry ∈ zones, entry.2.size ≤ entry.2.capacity params
  apart : ∀ first ∈ zones, ∀ second ∈ zones, ∀ nodeName ∈ first.2.nodes,
    nodeName ∈ second.2.nodes → first.1 = second.1
  known : ∀ entry ∈ zones, ∀ nodeName ∈ entry.2.nodes,
    ∃ node ∈ w.topology.nodes, node.name = nodeName

def zonedNodes (order : SetOrder) (zones : PrefixZones) : List (String × String) :=
  zones.flatMap fun entry => (order.toList entry.2.nodes).map fun nodeName => (entry.1, nodeName)

/-- The nodes of `done` have a candidate of their zone each, and the zones have registered them. -/
structure Assignment (zones : PrefixZones)
    (done : List (String × String)) (assigned : String → Option CIDRNetwork)
    (registered : String → CIDRNetwork → Option String) : Prop where
  given : ∀ zoneName nodeName, (zoneName, nodeName) ∈ done → ∃ network,
    assigned nodeName = some network ∧ ∃ zone, (zoneName, zone) ∈ zones ∧
      network ∈ candidates params zone
  owned : ∀ nodeName network, assigned nodeName = some network →
    ∃ zoneName, (zoneName, nodeName) ∈ done
  registers : ∀ zoneName network nodeName, registered zoneName network = some nodeName ↔
    (zoneName, nodeName) ∈ done ∧ assigned nodeName = some network

section Loop

variable {params} {order : SetOrder} {w : TopologyWrapper} {done rest : List (String × String)}
  {zoneName nodeName : String} {assigned : String → Option CIDRNetwork}

theorem mem_zonedNodes : (zoneName, nodeName) ∈ zonedNodes order zones ↔
    ∃ zone, (zoneName, zone) ∈ zones ∧ nodeName ∈ zone.nodes := by
  simp only [zonedNodes, mem_flatMap, mem_map, order.mem_toList, Prod.mk.injEq]
  constructor
  · rintro ⟨⟨_, zone⟩, member, _, inZone, rfl, rfl⟩
    exact ⟨zone, member, inZone⟩
  · rintro ⟨zone, member, inZone⟩
    exact ⟨(zoneName, zone), member, nodeName, inZone, rfl, rfl⟩

theorem Roomy.fresh (roomy : Roomy params w zones)
    (split : zonedNodes order zones = done ++ (zoneName, nodeName) :: rest) (other : String) :
    (other, nodeName) ∉ done := by
  intro isDone
  have both : ∀ name, (name, nodeName) ∈ zonedNodes order zones → name = zoneName := by
    intro _ isZoned
    obtain ⟨_, inOne, isOne⟩ := mem_zonedNodes.mp isZoned
    obtain ⟨_, inTwo, isTwo⟩ := mem_zonedNodes.mp (split ▸ mem_append_right done mem_cons_self)
    exact roomy.apart _ inOne _ inTwo nodeName isOne isTwo
  have same : other = zoneName := both other (split ▸ mem_append_left _ isDone)
  have nodup : (zonedNodes order zones).Nodup :=
    nodup_flatMap_pair Prod.fst roomy.nodup fun _ => order.nodup _
  rw [split, nodup_append] at nodup
  exact nodup.2.2 _ (same ▸ isDone) _ mem_cons_self rfl

section

variable (assignment : Assignment params zones done assigned registered)
include assignment

theorem Assignment.exists_free (roomy : Roomy params w zones)
    (split : zonedNodes order zones = done ++ (zoneName, nodeName) :: rest) :
    ∃ zone network, (zoneName, zone) ∈ zones ∧ network ∈ candidates params zone ∧
      registered zoneName network = none ∧
      (candidates params zone).find? (registered zoneName · = none) = some network := by
  obtain ⟨zone, member, inZone⟩ := mem_zonedNodes.mp (split ▸ mem_append_right done mem_cons_self)
  have few : (zone.nodes.erase nodeName).card < zone.capacity params := by
    have room : zone.nodes.card ≤ zone.capacity params := roomy.room _ member
    exact (Finset.card_erase_lt_of_mem inZone).trans_le room
  have ok : ZonePrefixesOk params { zone with allocatedNodePrefixes := registered zoneName } :=
    ⟨(roomy.zone member).inSeed, (roomy.zone member).disjoint⟩
  obtain ⟨network, candidate, free, found⟩ := exists_free_candidate ok few (by
    intro network _ other isRegistered
    obtain ⟨isDone, _⟩ := (assignment.registers zoneName network other).mp isRegistered
    rw [Finset.mem_erase]
    constructor
    · rintro rfl
      exact roomy.fresh split zoneName isDone
    · obtain ⟨_, isZone, there⟩ := mem_zonedNodes.mp (split ▸ mem_append_left _ isDone)
      exact eq_of_mem roomy.nodup isZone member ▸ there) (by
    intro one two other isOne isTwo
    have first := ((assignment.registers zoneName one other).mp isOne).2
    rw [((assignment.registers zoneName two other).mp isTwo).2] at first
    exact (Option.some.inj first).symm)
  exact ⟨zone, network, member, candidate, free, found⟩

/-- The next node takes a free candidate of its zone. -/
theorem Assignment.step
    (fresh : ∀ other, (other, nodeName) ∉ done) {zone : PrefixZone}
    (member : (zoneName, zone) ∈ zones) (candidate : network ∈ candidates params zone)
    (free : registered zoneName network = none) :
    Assignment params zones (done ++ [(zoneName, nodeName)])
      (update assigned nodeName (some network))
      (update registered zoneName (update (registered zoneName) network (some nodeName))) := by
  have earlier : ∀ z n, (z, n) ∈ done → n ≠ nodeName := by
    rintro z n isDone rfl
    exact fresh z isDone
  have unassigned : ∀ z n, (z, n) ∈ done → update assigned nodeName (some network) n =
      assigned n := fun z n isDone => update_of_ne (earlier z n isDone) _ _
  refine ⟨?_, ?_, ?_⟩
  · intro z n isDone
    rcases mem_append.mp isDone with old | new
    · rw [unassigned z n old]
      exact assignment.given z n old
    · cases mem_singleton.mp new
      exact ⟨network, update_self .., zone, member, candidate⟩
  · intro n other isAssigned
    by_cases here : n = nodeName
    · rw [here]
      exact ⟨zoneName, mem_append_right _ (mem_singleton_self _)⟩
    · rw [update_of_ne here] at isAssigned
      obtain ⟨z, isDone⟩ := assignment.owned n other isAssigned
      exact ⟨z, mem_append_left _ isDone⟩
  · intro z other n
    have entered : update registered zoneName
        (update (registered zoneName) network (some nodeName)) z other =
        if z = zoneName ∧ other = network then some nodeName else registered z other := by
      by_cases hereZone : z = zoneName
      · simp [hereZone, update_apply]
      · simp [hereZone]
    rw [mem_append, mem_singleton, Prod.mk.injEq, entered]
    by_cases hereNode : n = nodeName
    · -- the new node is registered where it has been put, and nowhere else
      subst hereNode
      have notRegistered : registered z other ≠ some n :=
        fun isRegistered => fresh z ((assignment.registers z other n).mp isRegistered).1
      rw [update_self]
      split
      · next here => simp [here]
      · next elsewhere =>
        refine iff_of_false notRegistered ?_
        rintro ⟨isDone, same⟩
        exact elsewhere ⟨(isDone.resolve_left (fresh z)).1, (Option.some.inj same).symm⟩
    · have old : ((z, n) ∈ done ∨ z = zoneName ∧ n = nodeName) ↔ (z, n) ∈ done := by
        simp [hereNode]
      rw [update_of_ne hereNode, old, ← assignment.registers z other n]
      split
      · next here =>
        rw [here.1, here.2, free]
        simp [Ne.symm hereNode]
      · rfl

theorem Assignment.injective
    (roomy : Roomy params w zones) {first second : String}
    (isFirst : assigned first = some network) (isSecond : assigned second = some network) :
    first = second := by
  have located : ∀ n, assigned n = some network → ∃ entry ∈ zones, (entry.1, n) ∈ done ∧
      ∃ zonePrefix ∈ entry.2.allocatedZonePrefixes, zonePrefix.Mem network.address := by
    intro n isAssigned
    obtain ⟨z, isDone⟩ := assignment.owned n network isAssigned
    obtain ⟨_, same, _, member, candidate⟩ := assignment.given z n isDone
    cases isAssigned.symm.trans same
    obtain ⟨_, _, zonePrefix, isPrefix, inside⟩ := (roomy.zone member).candidate candidate
    exact ⟨_, member, isDone, zonePrefix, isPrefix, inside _ network.mem_address⟩
  obtain ⟨one, isOne, firstDone, prefixOne, hasOne, inOne⟩ := located first isFirst
  obtain ⟨two, isTwo, secondDone, prefixTwo, hasTwo, inTwo⟩ := located second isSecond
  obtain ⟨sameZone, _⟩ := roomy.disjoint one isOne two isTwo prefixOne hasOne prefixTwo hasTwo _
    inOne inTwo
  have registeredFirst := (assignment.registers one.1 network first).mpr ⟨firstDone, isFirst⟩
  rw [sameZone, (assignment.registers two.1 network second).mpr ⟨secondDone, isSecond⟩]
    at registeredFirst
  exact (Option.some.inj registeredFirst).symm

end

/-- The state in which the given nodes have been given prefixes. -/
def assignedState (net : NetworkUtils) (zones : PrefixZones) (s : AllocState Deterministic)
    (assigned : String → Option CIDRNetwork)
    (registered : String → CIDRNetwork → Option String) : AllocState Deterministic :=
  { s with
    topologyW := withPrefixes net assigned s.topologyW
    allocator := { s.allocator with zones := withRegistered registered zones } }

variable {s : AllocState Deterministic}

theorem Assignment.run_assignNextPrefix {net : NetworkUtils}
    (assignment : Assignment params zones done assigned registered)
    (roomy : Roomy params s.topologyW zones) (invariant : SiteInvariant s.topologyW)
    (split : zonedNodes order zones = done ++ (zoneName, nodeName) :: rest) :
    ∃ assigned' registered', (assignNextPrefix net params zoneName nodeName).run
          (assignedState net zones s assigned registered) =
        .ok () (assignedState net zones s assigned' registered') ∧
      Assignment params zones (done ++ [(zoneName, nodeName)]) assigned' registered' := by
  obtain ⟨zone, network, member, candidate, free, found⟩ := assignment.exists_free roomy split
  refine ⟨_, _, ?_, assignment.step (roomy.fresh split) member candidate free⟩
  obtain ⟨_, sameZone, inZone⟩ := mem_zonedNodes.mp (split ▸ mem_append_right done mem_cons_self)
  obtain ⟨node, isNode, rfl⟩ := roomy.known _ sameZone nodeName inZone
  have current : (assignedState net zones s assigned registered).allocator.zone zoneName =
      { zone with allocatedNodePrefixes := registered zoneName } := by
    change (find zoneName (withRegistered registered zones)).getD {} = _
    rw [find_withRegistered, (find_eq_some_iff roomy.nodup).mpr member]
    rfl
  have ok : ZonePrefixesOk params { zone with allocatedNodePrefixes := registered zoneName } :=
    ⟨(roomy.zone member).inSeed, (roomy.zone member).disjoint⟩
  have next := run_getNextUnallocatedPrefix net ok.inSeed (assignedState net zones s assigned registered)
  have entered : upsert {} zoneName (·.assignNodePrefix node.name network)
      (withRegistered registered zones) = _ :=
    upsert_withRegistered roomy.nodup (mem_map.mpr ⟨_, member, rfl⟩) node.name network
  have written : (onTopology (setNodePrefix node.name (some (net.networkToString network))) :
      DpaM Unit).run (assignedState net zones s assigned (update registered zoneName
        (update (registered zoneName) network (some node.name)))) = _ :=
    onTopology_eq_ok.mpr
      ⟨_, run_setNodePrefix_withPrefixes net assigned invariant isNode network, rfl⟩
  rw [assignNextPrefix, run_bind, run_get]
  simp only
  rw [current, run_bind, next]
  have chosen : (candidates params { zone with allocatedNodePrefixes := registered zoneName }).find?
      (registered zoneName · = none) = some network := found
  simp only [chosen]
  refine Eq.trans ?_ written
  rw [assignedState, assignedState, ← entered]
  rfl

/-- With room in every zone the allocation returns, and each zoned node has a prefix of its own. -/
theorem run_allocateNodePrefixes (net : NetworkUtils)
    (roomy : Roomy params s.topologyW s.allocator.zones) (invariant : SiteInvariant s.topologyW)
    (unassigned : ∀ entry ∈ s.allocator.zones, entry.2.allocatedNodePrefixes = fun _ => none) :
    ∃ assigned registered, (allocateNodePrefixes net params order).run s =
        .ok () (assignedState net s.allocator.zones s assigned registered) ∧
      Assignment params s.allocator.zones (zonedNodes order s.allocator.zones) assigned
        registered := by
  have start : assignedState net s.allocator.zones s (fun _ => none) (fun _ _ => none) = s := by
    have sameZones : withRegistered (fun _ _ => none) s.allocator.zones = s.allocator.zones := by
      calc withRegistered (fun _ _ => none) s.allocator.zones = s.allocator.zones.map id := by
            apply map_congr_left
            intro entry member
            rw [← unassigned entry member]
            rfl
        _ = s.allocator.zones := map_id _
    rw [assignedState, sameZones, withPrefixes_none]
  have empty : Assignment params s.allocator.zones [] (fun _ => none) fun _ _ => none :=
    ⟨by simp, by simp, by simp⟩
  have loop : ∃ final, (forM (zonedNodes order s.allocator.zones) fun pair : String × String =>
      assignNextPrefix net params pair.1 pair.2).run s = .ok ⟨⟩ final ∧ ∃ assigned registered,
        final = assignedState net s.allocator.zones s assigned registered ∧
          Assignment params s.allocator.zones (zonedNodes order s.allocator.zones) assigned
            registered := by
    refine forM_runs (fun done t => ∃ assigned registered,
      t = assignedState net s.allocator.zones s assigned registered ∧
        Assignment params s.allocator.zones done assigned registered) ⟨_, _, start.symm, empty⟩ ?_
    rintro _ ⟨_, _⟩ _ split t ⟨_, _, rfl, assignment⟩
    obtain ⟨assigned', registered', ran, next⟩ :=
      assignment.run_assignNextPrefix roomy invariant split
    exact ⟨_, ran, assigned', registered', rfl, next⟩
  obtain ⟨_, run, assigned, registered, rfl, assignment⟩ := loop
  refine ⟨assigned, registered, ?_, assignment⟩
  rw [allocateNodePrefixes, run_bind, run_get]
  rw [zonedNodes, forM_flatMap] at run
  simpa only [forM_map] using run

end Loop

end Terragraph
