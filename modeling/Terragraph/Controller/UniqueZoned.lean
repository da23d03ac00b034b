/-
Module: Terragraph.Controller.UniqueZoned
Purpose: Uniqueness of prefixes under the deterministic allocator.
Trusted boundary: none
Main exports: Free, PrefixesApart.allocate
-/
import Terragraph.Controller.Handlers
import Terragraph.PrefixAlloc.Hooks

namespace Terragraph

open Guarded AssocList Function Option Deterministic List

def Free (params : PrefixAllocParams) (zones : PrefixZones) (network : CIDRNetwork) : Prop :=
  ∃ entry ∈ zones, network ∈ candidates params entry.2 ∧
    entry.2.allocatedNodePrefixes network = none

/-- The prefixes of nodes are texts of networks, no two alike, and none is free in a zone. -/
structure PrefixesApart (net : NetworkUtils) (params : PrefixAllocParams)
    (s : AllocState Deterministic) : Prop where
  ok : AllocatorOk params s
  canonical : ∀ node ∈ s.topologyW.topology.nodes, ∀ text, node.nodePrefix = some text → text ≠ "" →
    ∃ network, text = net.networkToString network
  distinct : ∀ first ∈ s.topologyW.topology.nodes, ∀ second ∈ s.topologyW.topology.nodes,
    ∀ network, first.nodePrefix = some (net.networkToString network) →
      second.nodePrefix = some (net.networkToString network) → first.name = second.name
  taken : ∀ node ∈ s.topologyW.topology.nodes, ∀ network,
    node.nodePrefix = some (net.networkToString network) → ¬ Free params s.allocator.zones network

/-- There is no POP site, or every node that carries a prefix can be reached from one. -/
def ReallocationSafe (w : TopologyWrapper) : Prop :=
  getPopSiteNames w = ∅ ∨ ∀ node ∈ w.topology.nodes, ∀ text, node.nodePrefix = some text →
    text ≠ "" → NameReachable w node

/-! ### Candidates of different zones -/

section Zones

variable {params : PrefixAllocParams} {zones : PrefixZones}

variable {network : CIDRNetwork}

theorem ZonesOk.candidate_unique (ok : ZonesOk params zones) {first second : String × PrefixZone}
    (isFirst : first ∈ zones) (isSecond : second ∈ zones)
    (inFirst : network ∈ candidates params first.2)
    (inSecond : network ∈ candidates params second.2) : first = second := by
  obtain ⟨_, _, one, isOne, covers⟩ := (ok.zone isFirst).candidate inFirst
  obtain ⟨_, _, two, isTwo, coversToo⟩ := (ok.zone isSecond).candidate inSecond
  have inside := network.mem_address
  have sameName := (ok.disjoint first isFirst second isSecond one isOne two isTwo _ (covers _ inside)
    (coversToo _ inside)).1
  obtain ⟨name, zone⟩ := first
  subst sameName
  rw [eq_of_mem ok.nodup isFirst isSecond]

/-- A change of one zone that keeps its prefixes frees no more than what it unregisters there. -/
theorem Free.of_upsert (ok : ZonesOk params zones) {zoneName : String} {f : PrefixZone → PrefixZone}
    (keeps : ∀ zone, (f zone).allocatedZonePrefixes = zone.allocatedZonePrefixes)
    (registers : ∀ zone, (f zone).allocatedNodePrefixes network = none →
      zone.allocatedNodePrefixes network = none)
    (free : Free params (upsert {} zoneName f zones) network) :
    Free params zones network := by
  obtain ⟨⟨name, _⟩, member, candidate, unregistered⟩ := free
  rcases (mem_upsert ok.nodup).mp member with ⟨_, same⟩ | ⟨rfl, rfl⟩
  · exact ⟨_, same, candidate, unregistered⟩
  · rw [candidates, keeps] at candidate
    cases found : find name zones with
    | none =>
      rw [found] at candidate
      obtain ⟨_, isPrefix, _⟩ := mem_candidates.mp candidate
      cases isPrefix
    | some before =>
      rw [found] at candidate unregistered
      exact ⟨_, (find_eq_some_iff ok.nodup).mp found, candidate, registers before unregistered⟩

theorem Free.of_renameZone (ok : ZonesOk params zones) {zoneName newName : String}
    (free : Free params (renameZone zoneName newName zones) network) :
    Free params zones network := by
  obtain ⟨⟨_, _⟩, member, candidate, unregistered⟩ := free
  unfold renameZone at member
  cases found : find zoneName zones with
  | none =>
    rw [found] at member
    exact ⟨_, member, candidate, unregistered⟩
  | some =>
    rw [found] at member
    have removed : (keys (remove zoneName zones)).Nodup :=
      nodup_keys_remove ok.nodup
    rcases (mem_upsert removed).mp member with ⟨_, kept⟩ | ⟨rfl, rfl⟩
    · exact ⟨_, (mem_filter.mp kept).1, candidate, unregistered⟩
    · exact ⟨_, (find_eq_some_iff ok.nodup).mp found, candidate, unregistered⟩

end Zones

variable {w : TopologyWrapper}

namespace PrefixesApart

variable {net : NetworkUtils} {params : PrefixAllocParams} {order : SetOrder} {buffer : Nat}
  {s s' : AllocState Deterministic}

/-! ### Changes that give no node a new prefix -/

variable (config : AutoNodesOverrides)

section

variable (apart : PrefixesApart net params s)
include apart

variable {rename : String → String}

/-- Nodes keep their prefixes, and the zones free only what no node carries. -/
theorem transfer (ok : AllocatorOk params s')
    (inherits : Inherits rename s.topologyW s'.topologyW)
    (frees : ∀ network, Free params s'.allocator.zones network →
      Free params s.allocator.zones network ∨ ∀ node ∈ s'.topologyW.topology.nodes,
          node.nodePrefix ≠ some (net.networkToString network)) :
    PrefixesApart net params s' := by
  have origin : ∀ node ∈ s'.topologyW.topology.nodes, ∀ network,
      node.nodePrefix = some (net.networkToString network) →
        ∃ before ∈ s.topologyW.topology.nodes, node.name = rename before.name ∧
          before.nodePrefix = some (net.networkToString network) :=
    fun node member network carries =>
      inherits node member _ carries (net.networkToString_ne_empty network)
  refine ⟨ok, ?_, ?_, ?_⟩
  · intro node member text carries nonempty
    obtain ⟨before, isBefore, _, carried⟩ := inherits node member text carries nonempty
    exact apart.canonical before isBefore text carried nonempty
  · intro first isFirst second isSecond network one two
    obtain ⟨firstBefore, wasFirst, firstName, carriedOne⟩ := origin first isFirst network one
    obtain ⟨secondBefore, wasSecond, secondName, carriedTwo⟩ := origin second isSecond network two
    rw [firstName, secondName,
      apart.distinct firstBefore wasFirst secondBefore wasSecond network carriedOne carriedTwo]
  · intro node member network carries free
    obtain ⟨before, isBefore, _, carried⟩ := origin node member network carries
    rcases frees network free with freeBefore | unused
    · exact apart.taken before isBefore network carried freeBefore
    · exact unused node member carries

theorem topology
    (sites : SiteInvariant w) (inherits : Inherits rename s.topologyW w)
    (config : AutoNodesOverrides) :
    PrefixesApart net params { s with topologyW := w, config := config } :=
  apart.transfer ⟨sites, apart.ok.zones, apart.ok.known⟩ inherits fun _ free => .inl free

variable {zoneName nodeName : String} {network : CIDRNetwork}

theorem released (unused : ∀ node ∈ s.topologyW.topology.nodes,
      node.nodePrefix ≠ some (net.networkToString network)) :
    PrefixesApart net params (released net zoneName nodeName network s) := by
  refine apart.transfer (apart.ok.released net zoneName nodeName network) (.of_nodes rfl) ?_
  intro other free
  by_cases here : other = network
  · exact .inr (here ▸ unused)
  · refine .inl (Free.of_upsert apart.ok.zones ?_ ?_ free)
    · exact fun _ => rfl
    · intro _ unregistered
      rw [PrefixZone.delNode] at unregistered
      simp only [update_of_ne here] at unregistered
      exact unregistered

theorem renamedNode (zoneName oldName newName : String) (network : CIDRNetwork) :
    PrefixesApart net params (renamedNode net zoneName oldName newName network s) := by
  refine apart.transfer (apart.ok.renamedNode net zoneName oldName newName network)
    (.of_nodes rfl) fun other free => .inl (Free.of_upsert apart.ok.zones ?_ ?_ free)
  · intro zone
    rw [PrefixZone.editNodeName]
    split
    · rfl
    · rfl
  · intro _ unregistered
    rw [PrefixZone.editNodeName] at unregistered
    split at unregistered
    · exact unregistered
    · simp only at unregistered
      split at unregistered
      · exact unregistered
      · by_cases here : other = network
        · rw [here, update_self] at unregistered
          cases unregistered
        · rw [update_of_ne here] at unregistered
          exact unregistered

theorem renamedZone (siteName newName : String) :
    PrefixesApart net params (renamedZone net siteName newName s) :=
  apart.transfer (apart.ok.renamedZone net siteName newName) (.of_nodes rfl)
    fun _ free => .inl (Free.of_renameZone apart.ok.zones free)

theorem failedState :
    PrefixesApart net params (failedState net order buffer s config) := by
  have nodes : (Terragraph.failedState net order buffer s config).topologyW.topology.nodes =
      s.topologyW.topology.nodes := by
    rw [Terragraph.failedState]
    split
    · rfl
    · rfl
  refine apart.transfer (AllocatorOk.failedState net apart.ok.sites config) (.of_nodes nodes) ?_
  rintro _ ⟨⟨_, _⟩, member, candidate, _⟩
  -- the zones have no prefixes yet
  obtain ⟨_, rfl⟩ := mem_rebuiltZones.mp member
  obtain ⟨_, isPrefix, _⟩ := mem_candidates.mp candidate
  cases isPrefix

/-! ### New prefixes -/

theorem enrolled
    {zone : PrefixZone} (isZone : (zoneName, zone) ∈ s.allocator.zones)
    (candidate : network ∈ candidates params zone)
    (unregistered : zone.allocatedNodePrefixes network = none) :
    PrefixesApart net params (enrolled net zoneName nodeName network s) := by
  have free : Free params s.allocator.zones network := ⟨_, isZone, candidate, unregistered⟩
  -- a node carries the new prefix or one of its own, which is another
  have carried : ∀ node ∈ (Terragraph.enrolled net zoneName nodeName network
      s).topologyW.topology.nodes, ∀ text, node.nodePrefix = some text →
        node.name = nodeName ∧ text = net.networkToString network ∨
          ∃ before ∈ s.topologyW.topology.nodes, node.name = before.name ∧
            before.nodePrefix = some text ∧ text ≠ net.networkToString network := by
    intro _ member _ carries
    obtain ⟨before, isBefore, named, _, nodePrefix⟩ := mem_withPrefixes member
    rw [carries] at nodePrefix
    by_cases here : before.name = nodeName
    · rw [here, update_self] at nodePrefix
      exact .inl ⟨named.trans here, some.inj nodePrefix⟩
    · rw [update_of_ne here] at nodePrefix
      refine .inr ⟨before, isBefore, named, nodePrefix.symm, ?_⟩
      rintro rfl
      exact apart.taken before isBefore network nodePrefix.symm free
  refine ⟨apart.ok.enrolled net zoneName nodeName network, ?_, ?_, ?_⟩
  · intro node member text carries nonempty
    obtain ⟨_, new⟩ | ⟨before, isBefore, _, old, _⟩ := carried node member text carries
    · exact ⟨network, new⟩
    · exact apart.canonical before isBefore text old nonempty
  · intro first isFirst second isSecond shared one two
    obtain ⟨firstNew, new⟩ | ⟨firstBefore, wasFirst, firstName, old, another⟩ :=
      carried first isFirst _ one
    · obtain ⟨secondNew, _⟩ | ⟨_, _, _, _, another⟩ := carried second isSecond _ two
      · exact firstNew.trans secondNew.symm
      · exact absurd new another
    · obtain ⟨_, new⟩ | ⟨secondBefore, wasSecond, secondName, oldToo, _⟩ :=
        carried second isSecond _ two
      · exact absurd new another
      · rw [firstName, secondName]
        exact apart.distinct firstBefore wasFirst secondBefore wasSecond shared old oldToo
  · intro node member shared carries freeAfter
    obtain ⟨_, new⟩ | ⟨before, isBefore, _, old, another⟩ := carried node member _ carries
    · cases net.networkToString_injective new
      obtain ⟨⟨_, _⟩, isOther, otherCandidate, otherFree⟩ := freeAfter
      rcases (mem_upsert apart.ok.zones.nodup).mp isOther with ⟨elsewhere, kept⟩ | ⟨rfl, rfl⟩
      · have sameEntry := apart.ok.zones.candidate_unique kept isZone otherCandidate candidate
        exact elsewhere (congrArg Prod.fst sameEntry)
      · simp [PrefixZone.assignNodePrefix] at otherFree
    · refine apart.taken before isBefore shared old (Free.of_upsert apart.ok.zones ?_ ?_ freeAfter)
      · exact fun _ => rfl
      · intro _ stillFree
        rw [PrefixZone.assignNodePrefix] at stillFree
        simp only [update_of_ne fun here => another (congrArg _ here)] at stillFree
        exact stillFree

end

theorem reallocated {assigned : String → Option CIDRNetwork} (sites : SiteInvariant s.topologyW)
    (hasPop : getPopSiteNames s.topologyW ≠ ∅) (safe : ReallocationSafe s.topologyW)
    (done : Reallocated net params order buffer s s' assigned) : PrefixesApart net params s' := by
  -- every prefix is one that was assigned
  have carried : ∀ node ∈ s'.topologyW.topology.nodes, ∀ text, node.nodePrefix = some text →
      text ≠ "" → ∃ network, assigned node.name = some network ∧ text = net.networkToString network := by
    intro _ member text carries nonempty
    obtain ⟨before, isBefore, named, _, nodePrefix⟩ := done.mem_nodes member
    rw [named]
    cases given : assigned before.name with
    | some network =>
      rw [given, carries] at nodePrefix
      exact ⟨network, rfl, some.inj nodePrefix⟩
    | none =>
      rw [given] at nodePrefix
      have reached := safe.resolve_left hasPop before isBefore text
        (nodePrefix.symm.trans carries) nonempty
      obtain ⟨zoneName, zoned⟩ := (done.exists_zone_iff sites).mpr ⟨before, isBefore, rfl, reached⟩
      obtain ⟨zone, isZone, inZone⟩ := done.node2Zone_eq_some_iff.mp zoned
      obtain ⟨_, _, assignedToo⟩ := done.given zoneName zone before.name isZone inZone
      rw [given] at assignedToo
      cases assignedToo
  have assigns : ∀ node ∈ s'.topologyW.topology.nodes, ∀ network,
      node.nodePrefix = some (net.networkToString network) → assigned node.name = some network := by
    intro node member network carries
    obtain ⟨_, given, same⟩ := carried node member _ carries (net.networkToString_ne_empty network)
    rw [net.networkToString_injective same]
    exact given
  refine ⟨AllocatorOk.reallocated net sites done, ?_, ?_, ?_⟩
  · intro node member text carries nonempty
    obtain ⟨network, _, same⟩ := carried node member text carries nonempty
    exact ⟨network, same⟩
  · intro first isFirst second isSecond network one two
    exact done.distinct _ _ network (assigns first isFirst network one)
      (assigns second isSecond network two)
  · rintro node member network carries ⟨_, isEntry, candidate, unregistered⟩
    have given := assigns node member network carries
    obtain ⟨⟨zoneName, zone⟩, isZone, inZone⟩ := done.owned node.name network given
    obtain ⟨_, isCandidate, givenToo⟩ := done.given zoneName zone node.name isZone inZone
    cases given.symm.trans givenToo
    have sameZone := (ZonesOk.of_tiled done.tiled done.nodup).candidate_unique isEntry isZone
      candidate isCandidate
    subst sameZone
    have registered := (done.registered zoneName zone node.name network isZone).mpr ⟨inZone, given⟩
    rw [unregistered] at registered
    cases registered

/-! ### The member functions -/

section

variable (apart : PrefixesApart net params s)
include apart

theorem configured :
    PrefixesApart net params { s with config := config } :=
  { apart with ok := { apart.ok with } }

theorem allocate (safe : ReallocationSafe s.topologyW) :
    Ends (PrefixesApart net params) ((Deterministic.allocate net params order buffer).run s) := by
  have outcome := allocate_outcome net params order buffer apart.ok.sites
  generalize (Deterministic.allocate net params order buffer).run s = result at outcome
  cases outcome with
  | never => trivial
  | noPop config => exact apart.failedState config
  | short => exact apart.failedState s.config
  | found _ _ hasPop _ done => exact reallocated apart.ok.sites hasPop safe done

variable {node : Node}

theorem addNode (stored : ∃ other ∈ s.topologyW.topology.nodes, other.name = node.name)
    (safe : node.popNode = true → find node.siteName s.allocator.zones = none →
      ReallocationSafe s.topologyW) :
    Ends (PrefixesApart net params)
      ((Deterministic.addNode net params order buffer node).run s) := by
  rcases addNode_cases net apart.ok stored with ⟨newPop, ran⟩ | (ran | ⟨_, ran⟩) |
    ⟨zoneName, zone, network, isZone, candidate, unregistered, ran⟩
  · rw [ran]
    exact apart.allocate (safe newPop.1 newPop.2)
  · rw [ran]
    exact apart
  · rw [ran]
    exact apart
  · rw [ran]
    exact apart.enrolled isZone candidate unregistered

theorem delNode (canonical : ∀ text, node.nodePrefix = some text → text ≠ "" →
      ∃ network, text = net.networkToString network)
    (left : ∀ network, node.nodePrefix = some (net.networkToString network) →
      ∀ other ∈ s.topologyW.topology.nodes, other.nodePrefix ≠ some (net.networkToString network))
    (safe : node.popNode = true → hasPopNode order s.topologyW node.siteName = false →
      find node.siteName s.allocator.zones ≠ none → ReallocationSafe s.topologyW) :
    Ends (PrefixesApart net params)
      ((Deterministic.delNode net params order buffer node).run s) := by
  have kept : PrefixesApart net params (withoutPopConfig node s) := by
    rw [withoutPopConfig]
    split
    · exact apart.configured _
    · exact apart
  have same : (withoutPopConfig node s).topologyW = s.topologyW ∧
      (withoutPopConfig node s).allocator = s.allocator := by
    rw [withoutPopConfig]
    split
    · exact ⟨rfl, rfl⟩
    · exact ⟨rfl, rfl⟩
  rw [run_delNode]
  split
  · next last => exact kept.allocate (same.1 ▸ safe last.1.1 last.2 last.1.2)
  · cases zoned : s.allocator.node2Zone node.name with
    | none => exact kept
    | some zoneName =>
      have isZone : zoneName ∈ keys (withoutPopConfig node s).allocator.zones :=
        same.2 ▸ apart.ok.known node.name zoneName zoned
      simp only
      rw [run_releasePrefix net isZone]
      cases carried : node.nodePrefix with
      | none =>
        exact kept.transfer (kept.ok.unzoned node.name) (.of_nodes rfl) fun _ free => .inl free
      | some text =>
        simp only
        cases parsed : net.createNetwork text with
        | error => exact kept
        | ok network =>
          refine kept.released ?_
          have nonempty : text ≠ "" := by
            rintro rfl
            exact net.createNetwork_empty network parsed
          obtain ⟨_, rfl⟩ := canonical text carried nonempty
          rw [net.createNetwork_networkToString] at parsed
          cases parsed
          rw [same.1]
          exact left _ carried

theorem editNode (oldNode newNode : Node) :
    Ends (PrefixesApart net params) ((Deterministic.editNode net oldNode newNode).run s) := by
  rw [run_editNode net apart.ok]
  split
  · next zoneName text _ _ =>
    split
    · cases net.createNetwork text with
      | error => exact apart
      | ok network => exact apart.renamedNode zoneName oldNode.name newNode.name network
    · exact apart
  · exact apart

theorem editSite (siteName : String) (newSite : Site) :
    Ends (PrefixesApart net params) ((Deterministic.editSite net siteName newSite).run s) := by
  rw [Deterministic.editSite]
  split
  · exact apart
  · exact apart.renamedZone siteName newSite.name

theorem addLinkEnd {nodeName : String}
    (isNode : node ∈ s.topologyW.topology.nodes) (named : node.name = nodeName)
    (safe : s.allocator.node2Zone nodeName = none → node.popNode = true →
      find node.siteName s.allocator.zones = none → ReallocationSafe s.topologyW) :
    Ends (PrefixesApart net params) ((addLinkEnd net params order buffer nodeName).run s) := by
  rw [run_addLinkEnd net isNode apart.ok named]
  split
  · next unzoned => exact apart.addNode ⟨node, isNode, rfl⟩ (safe unzoned)
  · exact apart

end

/-- A prefix for one end of a new link keeps a reallocation safe that the other end asks for. -/
theorem safe_enrolled {aNode zNode : Node} (isZ : zNode ∈ s.topologyW.topology.nodes)
    (popZ : zNode.popNode = true)
    (isA : aNode ∈ s.topologyW.topology.nodes) (sites : SiteInvariant s.topologyW)
    (adjacent : NameAdjacent s.topologyW zNode.siteName aNode.siteName)
    (safe : ReallocationSafe s.topologyW) (zoneName : String) (network : CIDRNetwork) :
    ReallocationSafe (Terragraph.enrolled net zoneName aNode.name network s).topologyW := by
  have graph : SameGraph s.topologyW
      (Terragraph.enrolled net zoneName aNode.name network s).topologyW :=
    SameGraph.published_withPrefixes net _ _ s.topologyW
  have popSite : zNode.siteName ∈ getPopSiteNames s.topologyW :=
    mem_getPopSiteNames.mpr ⟨zNode, isZ, popZ, rfl⟩
  refine .inr fun _ member text carries nonempty => ?_
  rw [NameReachable, graph.nameAdjacent, graph.popSites]
  obtain ⟨before, isBefore, _, atSite, nodePrefix⟩ := mem_withPrefixes member
  rw [atSite]
  by_cases here : before.name = aNode.name
  · have same : before = aNode :=
      inj_on_of_nodup_map sites.nodeIndex.nodup isBefore isA here
    exact ⟨zNode.siteName, popSite, same ▸ .single adjacent⟩
  · rw [update_of_ne here] at nodePrefix
    have safe := safe.resolve_left (Finset.ne_empty_of_mem popSite)
    exact safe before isBefore text (nodePrefix.symm.trans carries) nonempty

theorem addLink (apart : PrefixesApart net params s) {link : Link} {aNode zNode : Node}
    (isA : aNode ∈ s.topologyW.topology.nodes) (isZ : zNode ∈ s.topologyW.topology.nodes)
    (namedA : aNode.name = link.aNodeName) (namedZ : zNode.name = link.zNodeName)
    (distinct : aNode.name ≠ zNode.name)
    (adjacent : NameAdjacent s.topologyW zNode.siteName aNode.siteName)
    (safe : ∀ node, node = aNode ∨ node = zNode → s.allocator.node2Zone node.name = none →
      node.popNode = true → find node.siteName s.allocator.zones = none →
        ReallocationSafe s.topologyW) :
    Ends (PrefixesApart net params)
      ((Deterministic.addLink net params order buffer link).run s) := by
  refine (apart.addLinkEnd isA namedA (namedA ▸ safe aNode (.inl rfl))).bind ?_
  intro t ran apartT
  rw [run_addLinkEnd net isA apart.ok namedA] at ran
  split at ran
  · rcases addNode_cases net apart.ok ⟨aNode, isA, rfl⟩ with ⟨newPop, allocated⟩ |
      (same | ⟨_, thrown⟩) | ⟨zoneName, zone, network, _, _, _, added⟩
    · have popA : aNode.siteName ∈ getPopSiteNames s.topologyW :=
        mem_getPopSiteNames.mpr ⟨aNode, isA, newPop.1, rfl⟩
      have outcome := allocate_outcome net params order buffer apart.ok.sites
      rw [← allocated, ran] at outcome
      cases outcome with
      | noPop _ none => exact absurd none (Finset.ne_empty_of_mem popA)
      | found _ _ _ _ done =>
        -- now every POP site has a zone
        obtain ⟨after, isAfter, named, atSite, popNode⟩ := done.sameGraph.symm.mem_nodes isZ
        refine apartT.addLinkEnd isAfter (named.trans namedZ) fun _ popAfter unzoned => ?_
        have popSite : after.siteName ∈ getPopSiteNames s.topologyW :=
          mem_getPopSiteNames.mpr ⟨zNode, isZ, popNode ▸ popAfter, atSite.symm⟩
        exact absurd unzoned (find_ne_none_iff.mpr ((done.keys _).mpr
          ((zoneNodes_ne_empty_iff apart.ok.sites).mpr popSite)))
    · cases same.symm.trans ran
      exact apartT.addLinkEnd isZ namedZ (namedZ ▸ safe zNode (.inr rfl))
    · cases thrown.symm.trans ran
    · cases added.symm.trans ran
      have graph : SameGraph s.topologyW
          (Terragraph.enrolled net zoneName aNode.name network s).topologyW :=
        SameGraph.published_withPrefixes net _ _ s.topologyW
      obtain ⟨_, isAfter, named, atSite, popNode⟩ := graph.symm.mem_nodes isZ
      refine apartT.addLinkEnd isAfter (named.trans namedZ) fun unzoned popAfter noZone => ?_
      have unzonedZ : s.allocator.node2Zone zNode.name = none := by
        rw [← namedZ, Terragraph.enrolled] at unzoned
        simp only [update_of_ne distinct.symm] at unzoned
        exact unzoned
      have noZoneZ : find zNode.siteName s.allocator.zones = none := by
        rw [atSite, Terragraph.enrolled, find_upsert] at noZone
        split at noZone
        · cases noZone
        · exact noZone
      exact safe_enrolled isZ (popNode ▸ popAfter) isA apart.ok.sites adjacent
        (safe zNode (.inr rfl) unzonedZ (popNode ▸ popAfter) noZoneZ) zoneName network
  · cases ran
    exact apartT.addLinkEnd isZ namedZ (namedZ ▸ safe zNode (.inr rfl))

end PrefixesApart

/-! ### Requests -/

/-- The controller with the deterministic allocator. -/
def dpaApp (mac : MacUtils) (configHelper : ConfigUtils) (net : NetworkUtils)
    (params : PrefixAllocParams) (buffer : Nat) (order : SetOrder) : TopologyApp Deterministic where
  mac := mac
  order := order
  configHelper := configHelper
  prefixAllocator := some (deterministic net params order buffer)

/-- A request without a prefix of its own, which triggers only reallocations that replace all. -/
def SafeRequest (mac : MacUtils) (s : AllocState Deterministic) : Request → Prop
  | .addNode node => (∀ text, node.nodePrefix = some text → text = "") ∧
      (node.popNode = true → find node.siteName s.allocator.zones = none →
        ∀ w, Step mac s.topologyW (.addNode node) w → ReallocationSafe w)
  | .delNode nodeName force => ∀ node ∈ s.topologyW.topology.nodes, node.name = nodeName →
      node.popNode = true → find node.siteName s.allocator.zones ≠ none →
      (∀ other ∈ s.topologyW.topology.nodes, other.siteName = node.siteName → other.popNode = true →
        other.name = nodeName) →
      ∀ w, Step mac s.topologyW (.delNode nodeName force) w → ReallocationSafe w
  | .addLink link => ∀ node ∈ s.topologyW.topology.nodes,
      node.name = link.aNodeName ∨ node.name = link.zNodeName →
      s.allocator.node2Zone node.name = none → node.popNode = true →
      find node.siteName s.allocator.zones = none →
      ∀ w, Step mac s.topologyW (.addLink link) w → ReallocationSafe w
  | .allocatePrefixes => ReallocationSafe s.topologyW
  | _ => True

namespace PrefixesApart

variable {mac : MacUtils} {configHelper : ConfigUtils} {net : NetworkUtils}
  {params : PrefixAllocParams} {buffer : Nat} {order : SetOrder} {s s' : AllocState Deterministic}
  {request : Request}

section

variable (apart : PrefixesApart net params s)
include apart

theorem rejected {op : TopologyOp} {error : ControllerError}
    (asked : request.op = some op)
    (failed : (exec mac order op).run s.topologyW = .error error w) (config : AutoNodesOverrides) :
    PrefixesApart net params { s with topologyW := w, config := config } := by
  rcases rejected_cases apart.ok.sites asked failed with rfl | ⟨i, _, stored, present, frame⟩
  · exact apart.configured config
  · refine apart.topology ((apart.ok.sites.removeNode stored present).frame frame)
      (.of_subset ?_) config
    rw [frame.nodes, removeNode_nodes]
    exact eraseIdx_subset

theorem applied (safe : SafeRequest mac s request) {hook : DpaM Unit}
    (isApplied : Applied (dpaApp mac configHelper net params buffer order) s request w hook)
    (config : AutoNodesOverrides) :
    Ends (PrefixesApart net params) (hook.run { s with topologyW := w, config := config }) := by
  have sites : SiteInvariant w := apart.ok.sites.applied isApplied
  cases isApplied with
  | @addNode _ node w ran =>
    have record := addNode_record ran
    refine (apart.topology sites (inherits_addNode apart.ok.sites ran safe.1) config).addNode
      ⟨node, ?_, rfl⟩ ?_
    · rw [addNode_nodes apart.ok.sites ran]
      simp
    · intro popNode noZone
      rw [record.popNode] at popNode
      rw [record.siteName] at noZone
      exact safe.2 popNode noZone w ⟨order, run_discard ran⟩
  | @delNode _ _ w ran =>
    obtain ⟨i, node, stored, present, named, _⟩ := delNode_ok apart.ok.sites.nodeIndex ran
    have isNode : node ∈ s.topologyW.topology.nodes := mem_of_getElem? present
    have found := apart.ok.sites.getNode_eq stored present
    have kept := apart.topology sites (inherits_delNode apart.ok.sites ran) config
    simp only [found]
    refine kept.delNode (apart.canonical node isNode) ?_ ?_
    · intro network carries other isOther carriesToo
      obtain ⟨wasNode, apartName⟩ := (delNode_nodes apart.ok.sites ran).mp isOther
      exact apartName
        ((apart.distinct other wasNode node isNode network carriesToo carries).trans named)
    · intro popNode noPop hasZone
      refine safe node isNode named popNode hasZone ?_ w ⟨order, ran⟩
      intro other isOther atSite popOther
      by_contra apartName
      have remains := (delNode_nodes apart.ok.sites ran).mpr ⟨isOther, apartName⟩
      exact Bool.noConfusion
        (noPop.symm.trans ((hasPopNode_iff sites).mpr ⟨other, remains, atSite, popOther⟩))
  | @editNode _ newNode _ ran =>
    obtain ⟨i, node, stored, present, _, _, _⟩ := editNode_ok ran
    have found := apart.ok.sites.getNode_eq stored present
    have kept := apart.topology sites (inherits_editNode apart.ok.sites ran) config
    simp only [found]
    exact kept.editNode node newNode
  | @addLink _ _ _ ran =>
    obtain ⟨sameA, sameZ⟩ := addLink_ends ran
    obtain ⟨checked, _, rfl⟩ := addLink_ok ran
    have kept := apart.topology sites (.of_nodes rfl) config
    obtain ⟨_, foundA⟩ := ne_none_iff_exists'.mp checked.wellFormed.aNode
    obtain ⟨_, foundZ⟩ := ne_none_iff_exists'.mp checked.wellFormed.zNode
    obtain ⟨isA, namedA⟩ := apart.ok.sites.nodeIndex.find_eq_some_iff.mp foundA
    obtain ⟨isZ, namedZ⟩ := apart.ok.sites.nodeIndex.find_eq_some_iff.mp foundZ
    have ordered := checked.wellFormed.ordered
    refine kept.addLink isA isZ namedA namedZ (namedA ▸ namedZ ▸ ordered.ne)
      (nameAdjacent_pushLink apart.ok.sites ordered isZ isA (.inr ⟨namedZ.symm, namedA.symm⟩)) ?_
    rintro node (rfl | rfl) unzoned popNode noZone
    · exact safe node isA (.inl (namedA.trans sameA)) unzoned popNode noZone _
        ⟨order, run_discard ran⟩
    · exact safe node isZ (.inr (namedZ.trans sameZ)) unzoned popNode noZone _
        ⟨order, run_discard ran⟩
  | delLink ran => exact apart.topology sites (.of_nodes (delLink_frame ran).nodes) config
  | addSite ran =>
    obtain ⟨_, _, rfl⟩ := addSite_ok ran
    exact apart.topology sites (.of_nodes rfl) config
  | delSite ran =>
    obtain ⟨_, _, _, rfl⟩ := delSite_ok ran
    exact apart.topology sites (.of_nodes rfl) config
  | @editSite siteName newSite w ran =>
    exact (apart.topology sites (inherits_editSite apart.ok.sites ran) config).editSite siteName
      newSite
  | allocatePrefixes => exact (apart.configured config).allocate safe

theorem step (safe : SafeRequest mac s request) {success : Bool}
    (answered : respond (dpaApp mac configHelper net params buffer order) request s =
      some (success, s')) : PrefixesApart net params s' :=
  respond_keeps answered apart (fun _ config kept => kept.configured config)
    (fun _ _ _ asked failed => apart.rejected asked failed _)
    (fun _ _ isApplied => apart.applied safe isApplied _)

end

end PrefixesApart

end Terragraph
