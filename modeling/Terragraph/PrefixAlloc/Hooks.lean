/-
Module: Terragraph.PrefixAlloc.Hooks
Purpose: What the deterministic allocator does after a change of the topology, and what changes do
  to the graph of the sites that are joined by links.
Trusted boundary: none
Main exports: ZonesOk, addNode_cases, SameGraph
-/
import Terragraph.PrefixAlloc.Reallocation
import Terragraph.Topology.Atomicity

namespace Terragraph

variable {w : TopologyWrapper} {node : Node} {zoneName nodeName siteName : String}
  {assigned : String → Option CIDRNetwork}

section Changes

open Guarded AssocList Function EStateM Deterministic List

/-! ### The closest zone -/

section ZoneSearch

variable {order : SetOrder} {zones : PrefixZones}

theorem searchZone_eq (rounds : Nat) (s : Worklist.Search String) :
    searchZone order w zones rounds s = Worklist.searchFor (nbrSites order w)
      (fun siteName => find siteName zones ≠ none) rounds s := by
  induction rounds generalizing s with
  | zero => rfl
  | succ _ ih =>
    obtain ⟨seen, queue⟩ := s
    cases queue with
    | nil => rfl
    | cons siteName rest =>
      have next := ih (Worklist.expand (nbrSites order w) ⟨seen, siteName :: rest⟩)
      rw [Worklist.searchFor_cons, ← next]
      rfl

theorem findClosestZone_eq_some (found : findClosestZone order w zones node = some zoneName) :
    zoneName ∈ keys zones ∧ Relation.ReflTransGen (NameAdjacent w) node.siteName zoneName := by
  rw [findClosestZone, searchZone_eq] at found
  obtain ⟨isZone, path⟩ := Worklist.searchFor_eq_some
    (Worklist.Explored.start (nbrSites order w) node.siteName) found
  rw [reaches_nbrSites] at path
  exact ⟨find_ne_none_iff.mp isZone, path⟩

end ZoneSearch

/-! ### Zones that can be searched for a prefix -/

structure ZonesOk (params : PrefixAllocParams) (zones : PrefixZones) : Prop
    extends ZonesDisjoint params zones where
  nodup : (keys zones).Nodup

variable {f : PrefixZone → PrefixZone}

namespace ZonesOk

variable {params : PrefixAllocParams} {zones : PrefixZones}

theorem of_unplaced (nodup : (keys zones).Nodup)
    (unplaced : ∀ entry ∈ zones, entry.2.allocatedZonePrefixes = ∅) : ZonesOk params zones := by
  refine ⟨⟨?_, ?_⟩, nodup⟩
  · intro entry member _ isPrefix
    rw [unplaced entry member] at isPrefix
    cases isPrefix
  · intro first isFirst _ _ _ isOne
    rw [unplaced first isFirst] at isOne
    cases isOne

/-- Zones whose prefixes were prefixes of zones before, perhaps under another name. -/
theorem mono (rename : String → String) {zones' : PrefixZones} (ok : ZonesOk params zones)
    (nodup : (keys zones').Nodup)
    (origin : ∀ entry ∈ zones', ∀ zonePrefix ∈ entry.2.allocatedZonePrefixes,
      ∃ before ∈ zones, zonePrefix ∈ before.2.allocatedZonePrefixes ∧ entry.1 = rename before.1) :
    ZonesOk params zones' := by
  refine ⟨⟨?_, ?_⟩, nodup⟩
  · intro entry member zonePrefix isPrefix
    obtain ⟨before, isBefore, wasPrefix, _⟩ := origin entry member zonePrefix isPrefix
    exact ok.inSeed before isBefore zonePrefix wasPrefix
  · intro first isFirst second isSecond one isOne two isTwo x here there
    obtain ⟨firstBefore, wasFirst, wasOne, firstName⟩ := origin first isFirst one isOne
    obtain ⟨secondBefore, wasSecond, wasTwo, secondName⟩ := origin second isSecond two isTwo
    obtain ⟨sameName, same⟩ := ok.disjoint firstBefore wasFirst secondBefore wasSecond one wasOne two
      wasTwo x here there
    exact ⟨by rw [firstName, secondName, sameName], same⟩

theorem upsert (ok : ZonesOk params zones) (zoneName : String)
    (keeps : ∀ zone, (f zone).allocatedZonePrefixes = zone.allocatedZonePrefixes) :
    ZonesOk params (upsert {} zoneName f zones) := by
  refine ok.mono id (nodup_keys_upsert ok.nodup) ?_
  rintro ⟨name, _⟩ member _ isPrefix
  rcases (mem_upsert ok.nodup).mp member with ⟨_, same⟩ | ⟨rfl, changed⟩
  · exact ⟨_, same, isPrefix, rfl⟩
  · simp only at isPrefix
    rw [changed, keeps] at isPrefix
    cases found : find name zones with
    | none =>
      rw [found] at isPrefix
      cases isPrefix
    | some =>
      rw [found] at isPrefix
      exact ⟨_, (find_eq_some_iff ok.nodup).mp found, isPrefix, rfl⟩

theorem of_tiled (tiled : Tiled params zones) (nodup : (keys zones).Nodup) : ZonesOk params zones :=
  ⟨tiled.toZonesDisjoint, nodup⟩

theorem renameZone (ok : ZonesOk params zones) (zoneName newName : String) :
    ZonesOk params (renameZone zoneName newName zones) := by
  unfold Terragraph.renameZone
  cases found : find zoneName zones with
  | none => exact ok
  | some =>
    have removed : (keys (remove zoneName zones)).Nodup :=
      nodup_keys_remove ok.nodup
    refine ok.mono (fun name => if name = zoneName then newName else name)
      (nodup_keys_upsert removed) ?_
    rintro ⟨name, _⟩ member _ isPrefix
    rcases (mem_upsert removed).mp member with ⟨_, kept⟩ | ⟨rfl, rfl⟩
    · obtain ⟨inZones, apart⟩ := mem_filter.mp kept
      have apart : name ≠ zoneName := by simpa using apart
      exact ⟨_, inZones, isPrefix, (if_neg apart).symm⟩
    · exact ⟨_, (find_eq_some_iff ok.nodup).mp found, isPrefix, (if_pos rfl).symm⟩

end ZonesOk

/-- The state of an allocator whose zones can be searched and contain the zone of every node. -/
structure AllocatorOk (params : PrefixAllocParams) (s : AllocState Deterministic) : Prop where
  sites : SiteInvariant s.topologyW
  zones : ZonesOk params s.allocator.zones
  known : ∀ nodeName zoneName, s.allocator.node2Zone nodeName = some zoneName →
    zoneName ∈ keys s.allocator.zones

/-! ### A node that joins a zone -/

/-- The state after a node has been given a prefix of a zone. -/
def enrolled (net : NetworkUtils) (zoneName nodeName : String) (network : CIDRNetwork)
    (s : AllocState Deterministic) : AllocState Deterministic :=
  let zones := upsert {} zoneName
    (fun zone => (zone.addNode nodeName).assignNodePrefix nodeName network) s.allocator.zones
  { s with
    topologyW := published net zones
      (withPrefixes net (update (fun _ => none) nodeName (some network)) s.topologyW)
    allocator :=
      { zones := zones
        node2Zone := update s.allocator.node2Zone nodeName (some zoneName) } }

section Equations

variable (net : NetworkUtils) {params : PrefixAllocParams} {order : SetOrder} {buffer : Nat}
  {s : AllocState Deterministic}

theorem run_enroll (sites : SiteInvariant s.topologyW)
    (stored : ∃ other ∈ s.topologyW.topology.nodes, other.name = node.name)
    (zoneName : String) (network : CIDRNetwork) :
    (do modifyZone zoneName (·.addNode node.name)
        modifyZone zoneName (·.assignNodePrefix node.name network)
        setNode2Zone node.name (some zoneName)
        onTopology (setNodePrefix node.name (some (net.networkToString network)))
        setTopologyZones net : DpaM Unit).run s =
      .ok () (enrolled net zoneName node.name network s) := by
  obtain ⟨_, isOther, named⟩ := stored
  have entered := run_setNodePrefix_once net sites isOther network
  rw [named] at entered
  have zones := upsert_upsert ({} : PrefixZone) zoneName (·.addNode node.name)
    (·.assignNodePrefix node.name network) s.allocator.zones
  have written : (onTopology (setNodePrefix node.name (some (net.networkToString network))) :
        DpaM Unit).run { s with allocator :=
          { zones := upsert {} zoneName (·.assignNodePrefix node.name network)
              (upsert {} zoneName (·.addNode node.name) s.allocator.zones)
            node2Zone := update s.allocator.node2Zone node.name (some zoneName) } } =
      .ok () _ := onTopology_eq_ok.mpr ⟨_, entered, rfl⟩
  change (do onTopology (setNodePrefix node.name (some (net.networkToString network)))
             setTopologyZones net : DpaM Unit).run _ = _
  rw [run_bind, written]
  rw [zones]
  rfl

/-- `addNode` reallocates for a POP node at a new site.  Another node gets a free prefix of the
closest zone; without one, nothing changes. -/
theorem addNode_cases (ok : AllocatorOk params s)
    (stored : ∃ other ∈ s.topologyW.topology.nodes, other.name = node.name) :
    let result := (Deterministic.addNode net params order buffer node).run s
    ((node.popNode = true ∧ find node.siteName s.allocator.zones = none) ∧
      result = (allocate net params order buffer).run s) ∨
    (result = .ok () s ∨ ∃ error, result = .error (.thrown error) s) ∨
    ∃ zoneName zone network, (zoneName, zone) ∈ s.allocator.zones ∧
      network ∈ candidates params zone ∧ zone.allocatedNodePrefixes network = none ∧
      result = .ok () (enrolled net zoneName node.name network s) := by
  rw [Deterministic.addNode, run_bind, run_get]
  simp only
  split
  · next newPop => exact .inl ⟨newPop, rfl⟩
  · cases closest : findClosestZone order s.topologyW s.allocator.zones node with
    | none => exact .inr (.inl (.inl rfl))
    | some zoneName =>
      simp only
      split
      · exact .inr (.inl (.inr ⟨_, rfl⟩))
      · obtain ⟨⟨zoneName, zone⟩, isZone, rfl⟩ :=
          mem_map.mp (findClosestZone_eq_some closest).1
        have present := (find_eq_some_iff ok.zones.nodup).mpr isZone
        have scanned := run_getNextUnallocatedPrefix net (ok.zones.zone isZone).inSeed s
        simp only [Deterministic.zone, present, Option.getD_some] at scanned ⊢
        rw [run_bind, scanned]
        cases found : (candidates params zone).find? (zone.allocatedNodePrefixes · = none) with
        | none => exact .inr (.inl (.inr ⟨_, rfl⟩))
        | some network =>
          exact .inr (.inr ⟨zoneName, zone, network, isZone, mem_of_find?_eq_some found,
            by simpa using find?_some found, run_enroll net ok.sites stored zoneName network⟩)

theorem run_addLinkEnd (isNode : node ∈ s.topologyW.topology.nodes)
    (ok : AllocatorOk params s) (named : node.name = nodeName) :
    (addLinkEnd net params order buffer nodeName).run s =
      if s.allocator.node2Zone nodeName = none then
        (Deterministic.addNode net params order buffer node).run s
      else .ok () s := by
  have found : s.topologyW.getNode nodeName = some node :=
    ok.sites.nodeIndex.find_eq_some_iff.mpr ⟨isNode, named⟩
  rw [addLinkEnd, run_bind, run_get]
  simp only [found]
  split
  · rfl
  · rfl

/-! ### A node that leaves a zone or gets a new name -/

/-- The state after a node has left its zone. -/
def released (zoneName nodeName : String) (network : CIDRNetwork)
    (s : AllocState Deterministic) : AllocState Deterministic :=
  let zones := upsert {} zoneName (·.delNode nodeName network) s.allocator.zones
  { s with
    topologyW := published net zones s.topologyW
    allocator :=
      { zones := zones
        node2Zone := update s.allocator.node2Zone nodeName none } }

/-- The state after a node of a zone has got a new name. -/
def renamedNode (zoneName oldName newName : String) (network : CIDRNetwork)
    (s : AllocState Deterministic) : AllocState Deterministic :=
  let zones := upsert {} zoneName (·.editNodeName oldName network newName)
    s.allocator.zones
  { s with
    topologyW := published net zones s.topologyW
    allocator :=
      { zones := zones
        node2Zone := update (update s.allocator.node2Zone oldName none) newName
          (some zoneName) } }

/-- `zones_[zoneName]` for the zone of a node enters no new zone. -/
theorem run_modifyZone_id (isZone : zoneName ∈ keys s.allocator.zones) :
    (modifyZone zoneName id).run s = .ok () s := by
  have kept : upsert {} zoneName id s.allocator.zones = s.allocator.zones :=
    upsert_id isZone
  change EStateM.Result.ok () { s with allocator := { s.allocator with
    zones := upsert {} zoneName id s.allocator.zones } } = _
  rw [kept]

theorem run_releasePrefix (isZone : zoneName ∈ keys s.allocator.zones) :
    (releasePrefix net node zoneName).run s = match node.nodePrefix with
      | none => .ok () { s with allocator := { s.allocator with
          node2Zone := update s.allocator.node2Zone node.name none } }
      | some text =>
        match net.createNetwork text with
        | .error what => .error (.ipAddressFormat what) s
        | .ok network => .ok () (released net zoneName node.name network s) := by
  rw [releasePrefix, run_bind, run_modifyZone_id isZone]
  cases node.nodePrefix with
  | none => rfl
  | some text =>
    simp only [createNetwork]
    cases net.createNetwork text with
    | error what | ok network => rfl

/-- The state in which `delNode` decides: a POP node of a zone has lost its config. -/
def withoutPopConfig (node : Node) (s : AllocState Deterministic) : AllocState Deterministic :=
  if node.popNode = true ∧ find node.siteName s.allocator.zones ≠ none then
    { s with config := setAutoNodeSpecificNetworkPrefixes node.name none s.config }
  else s

theorem hasPopNode_iff (sites : SiteInvariant w) :
    hasPopNode order w siteName = true ↔
      ∃ other ∈ w.topology.nodes, other.siteName = siteName ∧ other.popNode = true := by
  simp only [hasPopNode, any_eq_true, order.mem_toList, Option.any_eq_true]
  constructor
  · rintro ⟨name, atSite, other, found, popNode⟩
    obtain ⟨isOther, named⟩ := sites.nodeIndex.find_eq_some_iff.mp found
    obtain ⟨each, isEach, sameName, rfl⟩ := (sites.assoc siteName name).mp atSite
    have same : each = other := inj_on_of_nodup_map sites.nodeIndex.nodup isEach isOther
      (sameName.trans named.symm)
    exact ⟨other, isOther, congrArg Node.siteName same.symm, popNode⟩
  · rintro ⟨other, isOther, rfl, popNode⟩
    exact ⟨other.name, (sites.assoc _ _).mpr ⟨other, isOther, rfl, rfl⟩, other,
      sites.nodeIndex.find_eq_some_iff.mpr ⟨isOther, rfl⟩, popNode⟩

/-- `delNode` reallocates after the last POP node of a zone; any other node leaves its zone. -/
theorem run_delNode : (Deterministic.delNode net params order buffer node).run s =
      if (node.popNode = true ∧ find node.siteName s.allocator.zones ≠ none) ∧
          hasPopNode order s.topologyW node.siteName = false then
        (allocate net params order buffer).run (withoutPopConfig node s)
      else
        match s.allocator.node2Zone node.name with
        | none => .ok () (withoutPopConfig node s)
        | some zoneName => (releasePrefix net node zoneName).run (withoutPopConfig node s) := by
  rw [Deterministic.delNode, run_bind, run_get, withoutPopConfig]
  simp only
  by_cases isPop : node.popNode = true ∧ find node.siteName s.allocator.zones ≠ none
  · rw [if_pos isPop, if_pos isPop]
    by_cases last : (node.popNode = true ∧ find node.siteName s.allocator.zones ≠ none) ∧
        hasPopNode order s.topologyW node.siteName = false
    · rw [if_pos last, if_pos last]
      rfl
    · rw [if_neg last, if_neg last]
      cases s.allocator.node2Zone node.name with
      | none | some zoneName => rfl
  · rw [if_neg isPop, if_neg isPop, if_neg fun last => isPop last.1, if_neg fun last => isPop last.1]
    cases s.allocator.node2Zone node.name with
    | none | some zoneName => rfl

theorem run_editNode (ok : AllocatorOk params s) {newNode : Node} :
    (Deterministic.editNode net node newNode).run s =
      match s.allocator.node2Zone node.name, node.nodePrefix with
      | some zoneName, some text =>
        if newNode.name ≠ "" ∧ newNode.name ≠ node.name then
          match net.createNetwork text with
          | .error what => .error (.ipAddressFormat what) s
          | .ok network => .ok () (renamedNode net zoneName node.name newNode.name network s)
        else .ok () s
      | _, _ => .ok () s := by
  rw [Deterministic.editNode, run_bind, run_get]
  simp only
  cases zoned : s.allocator.node2Zone node.name with
  | none => rfl
  | some =>
    rw [run_bind, run_modifyZone_id (ok.known _ _ zoned)]
    cases node.nodePrefix with
    | none => rfl
    | some text =>
      simp only [createNetwork]
      split
      · cases net.createNetwork text with
        | error what | ok network => rfl
      · rfl

/-- The state after a zone has got a new name. -/
def renamedZone (siteName newName : String) (s : AllocState Deterministic) :
    AllocState Deterministic :=
  let zones := renameZone siteName newName s.allocator.zones
  { s with
    topologyW := published net zones s.topologyW
    allocator :=
      { zones := zones
        node2Zone := fun nodeName => (s.allocator.node2Zone nodeName).map fun zoneName =>
          if zoneName = siteName then newName else zoneName } }

/-! ### What keeps the allocator in order -/

variable {zones : PrefixZones}

theorem mem_keys_renameZone {newName name : String} :
    name ∈ keys (renameZone siteName newName zones) ↔ ∃ zoneName ∈ keys zones,
        (if zoneName = siteName then newName else zoneName) = name := by
  rw [renameZone]
  cases found : find siteName zones with
  | none =>
    have absent : siteName ∉ keys zones :=
      fun present => find_ne_none_iff.mpr present found
    have apart : ∀ zoneName ∈ keys zones, zoneName ≠ siteName := by
      rintro _ isZone rfl
      exact absent isZone
    constructor
    · intro isZone
      exact ⟨name, isZone, if_neg (apart name isZone)⟩
    · rintro ⟨zoneName, isZone, rfl⟩
      rw [if_neg (apart zoneName isZone)]
      exact isZone
  | some =>
    have present : siteName ∈ keys zones :=
      find_ne_none_iff.mp (by simp [found])
    simp only [mem_keys_upsert, mem_keys_remove]
    constructor
    · rintro (rfl | ⟨apart, isZone⟩)
      · exact ⟨siteName, present, if_pos rfl⟩
      · exact ⟨name, isZone, if_neg apart⟩
    · rintro ⟨zoneName, isZone, rfl⟩
      by_cases here : zoneName = siteName
      · exact .inl (if_pos here)
      · rw [if_neg here]
        exact .inr ⟨here, isZone⟩

/-- A node that moves to a zone is in one that exists then. -/
theorem mem_keys_of_zoned {node2Zone : String → Option String}
    (known : ∀ other zoneName, node2Zone other = some zoneName → zoneName ∈ keys zones)
    (other otherZone : String)
    (zoned : update node2Zone nodeName (some zoneName) other = some otherZone) :
    otherZone ∈ keys (upsert {} zoneName f zones) := by
  apply mem_keys_upsert.mpr
  by_cases here : other = nodeName
  · rw [here, update_self, Option.some.injEq] at zoned
    exact .inl zoned.symm
  · rw [update_of_ne here] at zoned
    exact .inr (known _ _ zoned)

namespace AllocatorOk

section

variable (ok : AllocatorOk params s)
include ok

variable (zoneName nodeName : String)

theorem enrolled (network : CIDRNetwork) :
    AllocatorOk params (enrolled net zoneName nodeName network s) := by
  exact ⟨(ok.sites.withPrefixes net _).published net _, ok.zones.upsert _ fun _ => rfl,
    mem_keys_of_zoned ok.known⟩

theorem unzoned (nodeName : String) : AllocatorOk params { s with allocator := { s.allocator with
      node2Zone := update s.allocator.node2Zone nodeName none } } := by
  refine ⟨ok.sites, ok.zones, ?_⟩
  intro other _ zoned
  by_cases here : other = nodeName
  · simp [here] at zoned
  · simp only [update_of_ne here] at zoned
    exact ok.known _ _ zoned

theorem released (network : CIDRNetwork) :
    AllocatorOk params (released net zoneName nodeName network s) := by
  refine ⟨ok.sites.published net _, ok.zones.upsert _ fun _ => rfl, ?_⟩
  intro other otherZone zoned
  exact mem_keys_upsert.mpr (.inr ((ok.unzoned nodeName).known other otherZone zoned))

theorem renamedNode (zoneName oldName newName : String) (network : CIDRNetwork) :
    AllocatorOk params (renamedNode net zoneName oldName newName network s) := by
  have keeps : ∀ zone : PrefixZone,
      (zone.editNodeName oldName network newName).allocatedZonePrefixes =
        zone.allocatedZonePrefixes := by
    intro zone
    rw [PrefixZone.editNodeName]
    split
    · rfl
    · rfl
  exact ⟨ok.sites.published net _, ok.zones.upsert _ keeps,
    mem_keys_of_zoned (ok.unzoned oldName).known⟩

theorem renamedZone (siteName newName : String) :
    AllocatorOk params (renamedZone net siteName newName s) := by
  refine ⟨ok.sites.published net _, ok.zones.renameZone siteName newName, ?_⟩
  intro other _ zoned
  obtain ⟨zoneName, was, rfl⟩ := Option.map_eq_some_iff.mp zoned
  exact mem_keys_renameZone.mpr ⟨zoneName, ok.known other zoneName was, rfl⟩

end

theorem failedState (sites : SiteInvariant s.topologyW) (config : AutoNodesOverrides) :
    AllocatorOk params (failedState net order buffer s config) := by
  refine ⟨sites.failedState net order buffer config,
    ZonesOk.of_unplaced nodup_rebuiltZones ?_, ?_⟩
  · rintro ⟨_, _⟩ member
    obtain ⟨_, rfl⟩ := mem_rebuiltZones.mp member
    rfl
  · intro _ _ zoned
    have zoned := (groupNodes_eq_some_iff (nodup_batchNodesToPopSites order)).mp zoned
    exact mem_keys_rebuiltZones.mpr (Finset.ne_empty_of_mem zoned)

theorem reallocated {s' : AllocState Deterministic} (sites : SiteInvariant s.topologyW)
    (done : Reallocated net params order buffer s s' assigned) : AllocatorOk params s' := by
  refine ⟨?_, ZonesOk.of_tiled done.tiled done.nodup, ?_⟩
  · rw [done.topologyW]
    exact (sites.published net _).withPrefixes net assigned
  · intro _ _ zoned
    obtain ⟨_, member, _⟩ := done.node2Zone_eq_some_iff.mp zoned
    exact mem_map.mpr ⟨_, member, rfl⟩

end AllocatorOk

end Equations

end Changes

section Graph

open Guarded List TopologyWrapper Function KeyIndex

/-! ### What the graph depends on -/

def place (node : Node) : String × String × Bool := (node.name, node.siteName, node.popNode)

/-- Two topologies in which the search finds the same. -/
structure SameGraph (w w' : TopologyWrapper) : Prop where
  nodes : w'.topology.nodes.map place = w.topology.nodes.map place
  links : w'.topology.links = w.topology.links
  name2Node : w'.name2Node = w.name2Node
  name2Link : w'.name2Link = w.name2Link
  assocNodes : ∀ siteName, w'.assocNodes siteName = w.assocNodes siteName

namespace SameGraph

variable {w' : TopologyWrapper}

section

variable (same : SameGraph w w')
include same

theorem symm : SameGraph w' w :=
  ⟨same.nodes.symm, same.links.symm, same.name2Node.symm, same.name2Link.symm,
    fun siteName => (same.assocNodes siteName).symm⟩

theorem getNode (nodeName : String) :
    (w'.getNode nodeName).map place = (w.getNode nodeName).map place := by
  unfold TopologyWrapper.getNode find
  rw [same.name2Node, Option.map_bind, Option.map_bind]
  congr 1
  funext i
  rw [comp_apply, comp_apply, ← getElem?_map, ← getElem?_map, same.nodes]

theorem nbrSite (nodeName linkName : String) :
    (w'.getNbrNodeByLinkName nodeName linkName).map (·.siteName) =
      (w.getNbrNodeByLinkName nodeName linkName).map (·.siteName) := by
  have located : ∀ name, (w'.getNode name).map (·.siteName) = (w.getNode name).map (·.siteName) := by
    intro name
    have projected := congrArg (Option.map fun entry : String × String × Bool => entry.2.1)
      (same.getNode name)
    rw [Option.map_map, Option.map_map] at projected
    exact projected
  unfold getNbrNodeByLinkName getLink find
  rw [same.links, same.name2Link]
  cases (w.name2Link linkName).bind fun i => w.topology.links[i]? with
  | none => rfl
  | some =>
    simp only [Option.bind_some, getNbrNode]
    split
    · exact located _
    · split
      · exact located _
      · rfl

theorem nameAdjacent : NameAdjacent w' = NameAdjacent w := by
  funext siteName nbrSiteName
  unfold NameAdjacent nbrSitesOfNode getLinksByNodeName
  rw [same.assocNodes, same.links]
  simp only [same.nbrSite]

theorem popSites : getPopSiteNames w' = getPopSiteNames w := by
  have sites : ∀ v : TopologyWrapper, (v.topology.nodes.filter (·.popNode)).map (·.siteName) =
      ((v.topology.nodes.map place).filter (·.2.2)).map (·.2.1) := by
    intro v
    rw [filter_map, map_map]
    rfl
  rw [getPopSiteNames, getPopSiteNames, sites, sites, same.nodes]

theorem mem_nodes (member : node ∈ w'.topology.nodes) :
    ∃ before ∈ w.topology.nodes, before.name = node.name ∧ before.siteName = node.siteName ∧
      before.popNode = node.popNode := by
  have placed : place node ∈ w.topology.nodes.map place := same.nodes ▸ mem_map_of_mem member
  obtain ⟨before, isBefore, samePlace⟩ := mem_map.mp placed
  exact ⟨before, isBefore, congrArg (·.1) samePlace, congrArg (·.2.1) samePlace,
    congrArg (·.2.2) samePlace⟩

end

theorem published_withPrefixes (net : NetworkUtils) (zones : PrefixZones)
    (assigned : String → Option CIDRNetwork) (w : TopologyWrapper) :
    SameGraph w (published net zones (withPrefixes net assigned w)) := by
  refine ⟨?_, rfl, rfl, rfl, fun _ => rfl⟩
  change (w.topology.nodes.map _).map place = _
  rw [map_map]
  apply map_congr_left
  intro node _
  rw [comp_apply]
  split
  · rfl
  · rfl

end SameGraph

/-! ### Neighbours -/

def Joins (link : Link) (nodeName nbrName : String) : Prop :=
  (link.aNodeName = nodeName ∧ link.zNodeName = nbrName) ∨
    (link.zNodeName = nodeName ∧ link.aNodeName = nbrName)

section Neighbours

variable {link : Link} {nbr : Node}

theorem getNbrNode_eq_some_iff (sites : SiteInvariant w) (apart : link.aNodeName ≠ link.zNodeName)
    :
    w.getNbrNode nodeName link = some nbr ↔
      nbr ∈ w.topology.nodes ∧ Joins link nodeName nbr.name := by
  have found : ∀ name, w.getNode name = some nbr ↔ nbr ∈ w.topology.nodes ∧ nbr.name = name :=
    fun _ => sites.nodeIndex.find_eq_some_iff
  unfold getNbrNode Joins
  by_cases isZ : link.zNodeName = nodeName
  · have notA : link.aNodeName ≠ nodeName := fun isA => apart (isA.trans isZ.symm)
    rw [if_pos isZ, found]
    simp [isZ, notA, eq_comm]
  · rw [if_neg isZ]
    by_cases isA : link.aNodeName = nodeName
    · rw [if_pos isA, found]
      simp [isZ, isA, eq_comm]
    · simp [isZ, isA]

theorem mem_nbrSitesOfNode {nbrSiteName : String} :
    nbrSiteName ∈ nbrSitesOfNode w nodeName ↔ ∃ link ∈ w.topology.links, incident nodeName link ∧
      ∃ nbr, w.getNbrNodeByLinkName nodeName link.name = some nbr ∧ nbr.siteName = nbrSiteName := by
  simp only [nbrSitesOfNode, mem_filterMap, mem_getLinksByNodeName, Option.map_eq_some_iff,
    and_assoc]

theorem Joins.incident {nbrName : String} (joins : Joins link nodeName nbrName) :
    incident nodeName link :=
  joins.elim (fun ends => .inl ends.1) fun ends => .inr ends.1

theorem nameAdjacent_of_joins (sites : SiteInvariant w) (isLink : link ∈ w.topology.links)
    (named : w.getLink link.name = some link) (apart : link.aNodeName ≠ link.zNodeName)
    (isNode : node ∈ w.topology.nodes) (isNbr : nbr ∈ w.topology.nodes)
    (joins : Joins link node.name nbr.name) :
    NameAdjacent w node.siteName nbr.siteName := by
  refine ⟨node.name, (sites.assoc _ _).mpr ⟨node, isNode, rfl, rfl⟩, ?_⟩
  refine mem_nbrSitesOfNode.mpr ⟨link, isLink, joins.incident, nbr, ?_, rfl⟩
  rw [getNbrNodeByLinkName, named]
  exact (getNbrNode_eq_some_iff sites apart).mpr ⟨isNbr, joins⟩

theorem nameAdjacent_pushLink (sites : SiteInvariant w) (ordered : link.aNodeName < link.zNodeName)
    (isNode : node ∈ w.topology.nodes) (isNbr : nbr ∈ w.topology.nodes)
    (joins : Joins link node.name nbr.name) :
    NameAdjacent (w.pushLink link) node.siteName nbr.siteName := by
  have stored : (w.pushLink link).name2Link link.name = some w.topology.links.length := by
    change refresh Link.name (w.topology.links ++ [link]) w.name2Link link.name = _
    rw [refresh_concat, update_self]
  have present : (w.pushLink link).topology.links[w.topology.links.length]? = some link := by
    change (w.topology.links ++ [link])[w.topology.links.length]? = some link
    simp
  refine nameAdjacent_of_joins (sites.frame (LinkFrame.pushLink w link))
    (mem_of_getElem? present) ?_ ordered.ne isNode isNbr joins
  rw [getLink, find, stored]
  exact present

end Neighbours

/-! ### Zones after a reallocation -/

theorem mem_getPopSiteNames :
    siteName ∈ getPopSiteNames w ↔
      ∃ node ∈ w.topology.nodes, node.popNode = true ∧ node.siteName = siteName := by
  simp only [getPopSiteNames, mem_toFinset, mem_map, mem_filter, and_assoc]

variable {order : SetOrder}

theorem zoneNodes_ne_empty_iff (sites : SiteInvariant w) :
    zoneNodes (batchNodesToPopSites order w) zoneName ≠ ∅ ↔ zoneName ∈ getPopSiteNames w := by
  constructor
  · intro nonempty
    obtain ⟨_, inZone⟩ := Finset.nonempty_of_ne_empty nonempty
    obtain ⟨_, grouped⟩ := mem_zoneNodes.mp inZone
    exact batch_isPopSite _ grouped
  · intro isPop
    obtain ⟨_, isNode, popNode, rfl⟩ := mem_getPopSiteNames.mp isPop
    exact Finset.ne_empty_of_mem (mem_zoneNodes.mpr ⟨0, batch_popNode sites isNode popNode⟩)

variable {s s' : AllocState Deterministic} {params : PrefixAllocParams}

theorem Reallocated.sameGraph {net : NetworkUtils} {buffer : Nat}
    (done : Reallocated net params order buffer s s' assigned) :
    SameGraph s.topologyW s'.topologyW := by
  rw [done.topologyW]
  exact SameGraph.published_withPrefixes net s'.allocator.zones assigned s.topologyW

end Graph

end Terragraph
