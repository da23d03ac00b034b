/-
Module: Terragraph.PrefixAlloc.Reach
Purpose: The search for the POP site closest to every node.
Trusted boundary: human-reviewed embedding of `DeterministicPrefixAllocator.cpp`
Main exports: getPopSiteNames, batch_popNode
-/
import Terragraph.Lib.AssocList
import Terragraph.Lib.Rounds
import Terragraph.Topology.Sites

namespace Terragraph

open TopologyWrapper List AssocList Nat

/-! ### The search -/

/-- `DeterministicPrefixAllocator::getPopSiteNames`. -/
def getPopSiteNames (w : TopologyWrapper) : Finset String :=
  ((w.topology.nodes.filter (·.popNode)).map (·.siteName)).toFinset

/-- The local variables of `getNodeDistancesFromPopSite`. -/
structure Distances where
  visitedSiteNames : Finset String
  queue : List String
  node2HopCount : List (String × Nat)

section Search

variable (order : SetOrder) (w : TopologyWrapper)

/-- The end of the innermost loop: a neighbour on an unvisited site. -/
def visitNeighbor (distance : Nat) (s : Distances) (siteName : String) : Distances :=
  if siteName ∈ s.visitedSiteNames then s
  else
    { visitedSiteNames := insert siteName s.visitedSiteNames
      queue := s.queue ++ [siteName]
      node2HopCount := (order.toList (w.assocNodes siteName)).foldl
        (fun hops name => upsert 0 name (fun _ => distance) hops) s.node2HopCount }

def nbrSitesOfNode (nodeName : String) : List String :=
  (w.getLinksByNodeName nodeName).filterMap fun link =>
    (w.getNbrNodeByLinkName nodeName link.name).map (·.siteName)

/-- The loop body for one node of the current site; reading its hop count may enter a zero. -/
def visitNode (s : Distances) (nodeName : String) : Distances :=
  let hops := upsert 0 nodeName id s.node2HopCount
  let distance := (find nodeName hops).getD 0 + 1
  (nbrSitesOfNode w nodeName).foldl (visitNeighbor order w distance)
    { s with node2HopCount := hops }

def visitSite (s : Distances) (siteName : String) : Distances :=
  (order.toList (w.assocNodes siteName)).foldl (visitNode order w) s

/-- The loop over the queue, for at most the given number of rounds. -/
def visitQueue : Nat → Distances → Distances
  | 0, s => s
  | rounds + 1, s =>
    match s.queue with
    | [] => s
    | siteName :: rest => visitQueue rounds (visitSite order w { s with queue := rest } siteName)

/-- `DeterministicPrefixAllocator::getNodeDistancesFromPopSite`.  Every further site is queued
because of a node on it, which bounds the rounds. -/
def getNodeDistancesFromPopSite (popSiteName : String) : List (String × Nat) :=
  match w.getNodeNamesBySiteName popSiteName with
  | none => []
  | some popNodes =>
    (visitQueue order w (w.topology.nodes.length + 1)
      { visitedSiteNames := {popSiteName}
        queue := [popSiteName]
        node2HopCount := (order.toList popNodes).map fun name => (name, 0) }).node2HopCount

/-- Save the distance of a node if it is lower than the one from an earlier POP site. -/
def saveLower (popSiteName : String) (closest : List (String × Nat × String))
    (entry : String × Nat) : List (String × Nat × String) :=
  upsert (entry.2, popSiteName) entry.1
    (fun old => if entry.2 < old.1 then (entry.2, popSiteName) else old) closest

/-- `DeterministicPrefixAllocator::batchNodesToPopSites`: hop count and closest POP site of nodes.
-/
def batchNodesToPopSites : List (String × Nat × String) :=
  (order.toList (getPopSiteNames w)).foldl (fun closest popSiteName =>
    (getNodeDistancesFromPopSite order w popSiteName).foldl (saveLower popSiteName) closest) []

end Search

/-! ### Reachability -/

def nbrSites (order : SetOrder) (w : TopologyWrapper) (siteName : String) : List String :=
  (order.toList (w.assocNodes siteName)).flatMap (nbrSitesOfNode w)

def NameAdjacent (w : TopologyWrapper) (siteName nbrSiteName : String) : Prop :=
  ∃ nodeName ∈ w.assocNodes siteName, nbrSiteName ∈ nbrSitesOfNode w nodeName

/-- Two sites with a link between two of their nodes. -/
def LinkAdjacent (w : TopologyWrapper) (siteName nbrSiteName : String) : Prop :=
  ∃ link ∈ w.topology.links, ∃ node ∈ w.topology.nodes, ∃ nbr ∈ w.topology.nodes,
    node.siteName = siteName ∧ nbr.siteName = nbrSiteName ∧
      ((link.aNodeName = node.name ∧ link.zNodeName = nbr.name) ∨
        (link.zNodeName = node.name ∧ link.aNodeName = nbr.name))

/-- The node's site can be reached from a POP site over links to which their own name leads. -/
def NameReachable (w : TopologyWrapper) (node : Node) : Prop :=
  ∃ popSiteName ∈ getPopSiteNames w,
    Relation.ReflTransGen (NameAdjacent w) popSiteName node.siteName

def LinkReachable (w : TopologyWrapper) (node : Node) : Prop :=
  ∃ popSiteName ∈ getPopSiteNames w,
    Relation.ReflTransGen (LinkAdjacent w) popSiteName node.siteName

variable {siteName : String} {nbrSiteName : String} {w : TopologyWrapper}

theorem mem_nbrSites {order : SetOrder} :
    nbrSiteName ∈ nbrSites order w siteName ↔ NameAdjacent w siteName nbrSiteName := by
  simp [nbrSites, NameAdjacent, order.mem_toList]

/-! ### The search as an exploration of sites -/

def Distances.search (s : Distances) : Worklist.Search String := ⟨s.visitedSiteNames, s.queue⟩

section Projection

variable (order : SetOrder) (w : TopologyWrapper)

theorem visitNeighbor_search (distance : Nat) (s : Distances) (siteName : String) :
    (visitNeighbor order w distance s siteName).search = Worklist.discover s.search siteName := by
  unfold visitNeighbor Worklist.discover
  split
  · next seen => rw [if_pos (show siteName ∈ s.search.visited from seen)]
  · next unseen =>
    rw [if_neg (show siteName ∉ s.search.visited from unseen)]
    rfl

theorem visitNode_search (s : Distances) (nodeName : String) :
    (visitNode order w s nodeName).search =
      (nbrSitesOfNode w nodeName).foldl Worklist.discover s.search := by
  exact (foldl_hom Distances.search fun s siteName =>
    (visitNeighbor_search order w _ s siteName).symm).symm

theorem visitSite_search (s : Distances) (siteName : String) :
    (visitSite order w s siteName).search =
      (nbrSites order w siteName).foldl Worklist.discover s.search := by
  unfold visitSite nbrSites
  rw [foldl_flatMap]
  exact (foldl_hom Distances.search fun s nodeName =>
    (visitNode_search order w s nodeName).symm).symm

theorem visitQueue_search (rounds : Nat) (s : Distances) : (visitQueue order w rounds s).search =
      Worklist.explore (nbrSites order w) rounds s.search := by
  induction rounds generalizing s with
  | zero => rfl
  | succ rounds ih =>
    obtain ⟨visited, queue, _⟩ := s
    cases queue with
    | nil =>
      -- a search with an empty queue stands still
      have idle : ∀ rounds, Worklist.explore (nbrSites order w) rounds ⟨visited, []⟩ =
          ⟨visited, []⟩ := by
        intro rounds
        induction rounds with
        | zero => rfl
        | succ _ idle => exact idle
      exact (idle (rounds + 1)).symm
    | cons =>
      rw [visitQueue, ih, visitSite_search]
      rfl

end Projection

/-! ### The nodes that are found -/

/-- The hop counts are those of the nodes at visited sites, and only visited sites are queued. -/
structure Surveyed (w : TopologyWrapper) (s : Distances) : Prop where
  covers : ∀ nodeName, nodeName ∈ keys s.node2HopCount ↔
    ∃ siteName ∈ s.visitedSiteNames, nodeName ∈ w.assocNodes siteName
  queued : ∀ siteName ∈ s.queue, siteName ∈ s.visitedSiteNames

variable {nodeName : String} {popNodes : Finset String} {popSiteName : String}

section Found

variable (order : SetOrder)

theorem exists_node_of_nbrSite (invariant : SiteInvariant w)
    (adjacent : siteName ∈ nbrSitesOfNode w nodeName) :
    ∃ node ∈ w.topology.nodes, node.siteName = siteName := by
  obtain ⟨_, _, found⟩ := mem_filterMap.mp adjacent
  obtain ⟨node, isNbr, rfl⟩ := Option.map_eq_some_iff.mp found
  obtain ⟨_, _, isNbr⟩ := Option.bind_eq_some_iff.mp isNbr
  refine ⟨node, ?_, rfl⟩
  unfold getNbrNode at isNbr
  split at isNbr
  · exact (invariant.nodeIndex.sound.find_key isNbr).1
  · split at isNbr
    · exact (invariant.nodeIndex.sound.find_key isNbr).1
    · cases isNbr

def nodeSites (w : TopologyWrapper) : Finset String :=
  (w.topology.nodes.map (·.siteName)).toFinset

theorem mem_nodeSites :
    siteName ∈ nodeSites w ↔ ∃ node ∈ w.topology.nodes, node.siteName = siteName := by
  rw [nodeSites, mem_toFinset, mem_map]

theorem reaches_nbrSites (w : TopologyWrapper) :
    Worklist.Reaches (nbrSites order w) = Relation.ReflTransGen (NameAdjacent w) := by
  rw [Worklist.Reaches]
  congr 1
  funext siteName nbrSiteName
  exact propext mem_nbrSites

theorem surveyed_start (stored : w.site2AssocNodes popSiteName = some popNodes) :
    Surveyed w ⟨{popSiteName}, [popSiteName],
      (order.toList popNodes).map fun name => (name, 0)⟩ := by
  refine ⟨?_, by simp⟩
  intro name
  simp [order.mem_toList, assocNodes, stored]

theorem nodup_batchNodesToPopSites : (keys (batchNodesToPopSites order w)).Nodup := by
  refine foldlRecOn (motive := fun closest => (AssocList.keys closest).Nodup) _ _ nodup_nil ?_
  intro _ nodup _ _
  exact nodup_keys_foldl_upsert Prod.fst _ _ nodup

end Found

/-! ### The zone of a POP node -/

theorem SiteInvariant.site_unique (invariant : SiteInvariant w)
    {one two : String} (atOne : nodeName ∈ w.assocNodes one)
    (atTwo : nodeName ∈ w.assocNodes two) : one = two := by
  obtain ⟨_, isFirst, firstName, rfl⟩ := (invariant.assoc _ _).mp atOne
  obtain ⟨_, isSecond, secondName, rfl⟩ := (invariant.assoc _ _).mp atTwo
  rw [inj_on_of_nodup_map invariant.nodeIndex.nodup isFirst isSecond
    (firstName.trans secondName.symm)]

/-- The nodes at the POP site, and only they, have hop count zero. -/
structure Hops (w : TopologyWrapper) (popSiteName : String) (s : Distances) : Prop where
  surveyed : Surveyed w s
  nodup : (keys s.node2HopCount).Nodup
  started : popSiteName ∈ s.visitedSiteNames
  zero : ∀ nodeName hops, find nodeName s.node2HopCount = some hops →
    (hops = 0 ↔ nodeName ∈ w.assocNodes popSiteName)

theorem find_foldl_upsert_const {names : List String} {distance : Nat}
    {hops : List (String × Nat)} :
    find nodeName (names.foldl (fun hops name => upsert 0 name (fun _ => distance) hops) hops) =
      if nodeName ∈ names then some distance else find nodeName hops := by
  induction names generalizing hops with
  | nil => simp
  | cons name rest ih =>
    rw [foldl_cons, ih, find_upsert]
    by_cases later : nodeName ∈ rest
    · simp [later]
    · by_cases here : name = nodeName
      · simp [here]
      · simp [here, Ne.symm here]

namespace Hops

variable (order : SetOrder) {s : Distances} (invariant : SiteInvariant w)
include invariant

section

variable (hops : Hops w popSiteName s)
include hops

theorem visitNeighbor {distance : Nat} (positive : 0 < distance)
    (siteName : String) : Hops w popSiteName (visitNeighbor order w distance s siteName) := by
  unfold Terragraph.visitNeighbor
  split
  · exact hops
  next unvisited =>
  refine ⟨⟨?_, ?_⟩, ?_, Finset.mem_insert_of_mem hops.started, ?_⟩
  · intro nodeName
    dsimp only
    rw [mem_keys_foldl_upsert (fun name => name) (fun _ => 0) fun _ _ => distance,
      map_id', order.mem_toList, hops.surveyed.covers]
    simp
  · exact forall_mem_append.mpr
      ⟨fun other old => Finset.mem_insert_of_mem (hops.surveyed.queued other old),
        forall_mem_singleton.mpr (Finset.mem_insert_self _ _)⟩
  · exact nodup_keys_foldl_upsert (fun name => name) (fun _ => 0) (fun _ _ => distance) hops.nodup
  · intro nodeName count found
    simp only at found
    rw [find_foldl_upsert_const] at found
    split at found
    · next listed =>
      have there := (order.mem_toList _ _).mp listed
      cases found
      refine iff_of_false positive.ne' ?_
      intro atPop
      exact unvisited (invariant.site_unique there atPop ▸ hops.started)
    · exact hops.zero nodeName count found

theorem visitNode
    (visited : siteName ∈ s.visitedSiteNames) (member : nodeName ∈ w.assocNodes siteName) :
    Hops w popSiteName (visitNode order w s nodeName) := by
  have known := (hops.surveyed.covers nodeName).mpr ⟨siteName, visited, member⟩
  unfold Terragraph.visitNode
  simp only [upsert_id known]
  exact foldlRecOn (motive := Hops w popSiteName) _ _ hops fun t holds nbrSiteName _ =>
      holds.visitNeighbor order invariant (succ_pos _) nbrSiteName

theorem visitSite (visited : siteName ∈ s.visitedSiteNames) :
    Hops w popSiteName (visitSite order w s siteName) := by
  refine (foldlRecOn (motive := fun t => Hops w popSiteName t ∧
    siteName ∈ t.visitedSiteNames) _ _ ⟨hops, visited⟩ ?_).1
  intro t ⟨holds, grown⟩ nodeName member
  refine ⟨holds.visitNode order invariant grown ((order.mem_toList _ _).mp member), ?_⟩
  obtain ⟨_, _, _, _, more⟩ := Worklist.foldl_discover (nbrSitesOfNode w nodeName) t.search
  rw [← visitNode_search order] at more
  exact more.symm.subset (Finset.mem_union_left _ grown)

theorem visitQueue (rounds : Nat) : Hops w popSiteName (visitQueue order w rounds s) := by
  induction rounds generalizing s with
  | zero => exact hops
  | succ _ ih =>
    obtain ⟨visited, queue, counts⟩ := s
    cases queue with
    | nil => exact hops
    | cons siteName rest =>
      have isVisited := hops.surveyed.queued siteName mem_cons_self
      have taken : Hops w popSiteName ⟨visited, rest, counts⟩ :=
        ⟨⟨hops.surveyed.covers, fun other member =>
          hops.surveyed.queued other (mem_cons_of_mem _ member)⟩, hops.nodup, hops.started,
          hops.zero⟩
      exact ih (taken.visitSite order invariant isVisited)

end

end Hops

section PopNode

variable {order : SetOrder}

/-- The hop counts from a POP site are the result of a search that starts at its nodes. -/
theorem hops_getNodeDistances (order : SetOrder) (invariant : SiteInvariant w)
    (stored : w.site2AssocNodes popSiteName = some popNodes) :
    ∃ s, Hops w popSiteName s ∧ getNodeDistancesFromPopSite order w popSiteName = s.node2HopCount ∧
      s.search = Worklist.explore (nbrSites order w) (w.topology.nodes.length + 1)
        (.start popSiteName) := by
  have keys : keys ((order.toList popNodes).map fun name => (name, 0)) = order.toList popNodes := by
    rw [AssocList.keys, map_map]
    exact map_id _
  have nodup : (AssocList.keys ((order.toList popNodes).map fun name => (name, 0))).Nodup := by
    rw [keys]
    exact order.nodup popNodes
  have start : Hops w popSiteName ⟨{popSiteName}, [popSiteName],
      (order.toList popNodes).map fun name => (name, 0)⟩ := by
    refine ⟨surveyed_start order stored, nodup, Finset.mem_singleton_self _, ?_⟩
    intro _ _ found
    rw [find_eq_some_iff nodup] at found
    obtain ⟨_, listed, same⟩ := mem_map.mp found
    cases same
    refine iff_of_true rfl ?_
    rw [assocNodes, stored]
    exact (order.mem_toList _ _).mp listed
  refine ⟨_, start.visitQueue order invariant _, ?_, visitQueue_search order w _ _⟩
  rw [getNodeDistancesFromPopSite, getNodeNamesBySiteName, stored]

theorem mem_getNodeDistancesFromPopSite (invariant : SiteInvariant w)
    (isPop : popSiteName ∈ getPopSiteNames w) (nodeName : String) :
    nodeName ∈ keys (getNodeDistancesFromPopSite order w popSiteName) ↔
      ∃ siteName, Relation.ReflTransGen (NameAdjacent w) popSiteName siteName ∧
        nodeName ∈ w.assocNodes siteName := by
  obtain ⟨popNode, member, atPop⟩ : ∃ node ∈ w.topology.nodes, node.siteName = popSiteName := by
    simp only [getPopSiteNames, mem_toFinset, mem_map, mem_filter] at isPop
    obtain ⟨node, ⟨member, _⟩, atPop⟩ := isPop
    exact ⟨node, member, atPop⟩
  have atSite := (invariant.assoc popSiteName popNode.name).mpr ⟨popNode, member, rfl, atPop⟩
  obtain ⟨popNodes, stored⟩ : ∃ popNodes, w.site2AssocNodes popSiteName = some popNodes := by
    rw [← Option.ne_none_iff_exists']
    intro absent
    simp [assocNodes, absent] at atSite
  have inside : popSiteName ∈ nodeSites w := mem_nodeSites.mpr ⟨popNode, member, atPop⟩
  have closed : ∀ a ∈ nodeSites w, ∀ b ∈ nbrSites order w a, b ∈ nodeSites w :=
    fun _ _ _ adjacent => by
      obtain ⟨_, _, isNbr⟩ := mem_nbrSites.mp adjacent
      exact mem_nodeSites.mpr (exists_node_of_nbrSite invariant isNbr)
  have enough : (nodeSites w).card ≤ w.topology.nodes.length + 1 :=
    ((toFinset_card_le _).trans (length_map _).le).trans (le_succ _)
  obtain ⟨s, hops, result, explored⟩ := hops_getNodeDistances order invariant stored
  rw [result, hops.surveyed.covers]
  apply exists_congr
  intro siteName
  have complete := Worklist.explore_complete inside closed enough siteName
  rw [reaches_nbrSites] at complete
  rw [← complete]
  exact and_congr_left' (Eq.to_iff (congrArg (siteName ∈ ·.visited) explored))

variable (order) in
theorem mem_batchNodesToPopSites (invariant : SiteInvariant w) (nodeName : String) :
    nodeName ∈ keys (batchNodesToPopSites order w) ↔
      ∃ node ∈ w.topology.nodes, node.name = nodeName ∧ NameReachable w node := by
  have merged : ∀ (popSiteNames : List String) (closest : List (String × Nat × String)),
      nodeName ∈ keys (popSiteNames.foldl (fun closest popSiteName =>
        (getNodeDistancesFromPopSite order w popSiteName).foldl (saveLower popSiteName) closest)
        closest) ↔
      (∃ popSiteName ∈ popSiteNames,
        nodeName ∈ keys (getNodeDistancesFromPopSite order w popSiteName)) ∨
      nodeName ∈ keys closest := by
    intro popSiteNames
    induction popSiteNames with
    | nil => simp
    | cons popSiteName _ ih =>
      intro closest
      have saved : nodeName ∈ keys ((getNodeDistancesFromPopSite order w
          popSiteName).foldl (saveLower popSiteName) closest) ↔
          nodeName ∈ keys (getNodeDistancesFromPopSite order w popSiteName) ∨
            nodeName ∈ keys closest :=
        mem_keys_foldl_upsert Prod.fst _ _
      rw [foldl_cons, ih, saved]
      simp only [mem_cons, exists_eq_or_imp]
      exact or_left_comm.trans or_assoc.symm
  unfold batchNodesToPopSites
  rw [merged]
  constructor
  · rintro (⟨popSiteName, isPop, found⟩ | impossible)
    · have isPop := (order.mem_toList _ _).mp isPop
      obtain ⟨_, path, member⟩ :=
        (mem_getNodeDistancesFromPopSite invariant isPop nodeName).mp found
      obtain ⟨node, isNode, named, rfl⟩ := (invariant.assoc _ _).mp member
      exact ⟨node, isNode, named, popSiteName, isPop, path⟩
    · cases impossible
  · rintro ⟨node, isNode, rfl, popSiteName, isPop, path⟩
    left
    refine ⟨popSiteName, (order.mem_toList _ _).mpr isPop, ?_⟩
    rw [mem_getNodeDistancesFromPopSite invariant isPop]
    exact ⟨node.siteName, path, (invariant.assoc _ _).mpr ⟨node, isNode, rfl, rfl⟩⟩

variable {entry : String × Nat}

theorem getNodeDistances_eq_zero_iff (invariant : SiteInvariant w)
    (found : entry ∈ getNodeDistancesFromPopSite order w popSiteName) :
    entry.2 = 0 ↔ entry.1 ∈ w.assocNodes popSiteName := by
  cases stored : w.site2AssocNodes popSiteName with
  | none =>
    rw [getNodeDistancesFromPopSite, getNodeNamesBySiteName, stored] at found
    cases found
  | some =>
    obtain ⟨s, hops, result, _⟩ := hops_getNodeDistances order invariant stored
    rw [result] at found
    exact hops.zero entry.1 entry.2 ((find_eq_some_iff hops.nodup).mpr found)

def AtMost (nodeName : String) (hops : Nat) (closest : List (String × Nat × String)) : Prop :=
  ∃ saved, find nodeName closest = some saved ∧ saved.1 ≤ hops

variable {closest : List (String × Nat × String)}

theorem AtMost.saveLower {hops : Nat} (atMost : AtMost nodeName hops closest)
    (popSiteName : String) (entry : String × Nat) :
    AtMost nodeName hops (saveLower popSiteName closest entry) := by
  obtain ⟨saved, found, below⟩ := atMost
  rw [AtMost, Terragraph.saveLower, find_upsert]
  by_cases here : entry.1 = nodeName
  · rw [if_pos here, here, found]
    refine ⟨_, rfl, ?_⟩
    simp only [Option.getD_some]
    split
    · next lower => exact lower.le.trans below
    · exact below
  · rw [if_neg here]
    exact ⟨saved, found, below⟩

theorem atMost_saveLower (popSiteName : String) (closest : List (String × Nat × String))
    (entry : String × Nat) : AtMost entry.1 entry.2 (saveLower popSiteName closest entry) := by
  rw [AtMost, saveLower, find_upsert, if_pos rfl]
  refine ⟨_, rfl, ?_⟩
  cases find entry.1 closest with
  | none => simp
  | some =>
    split
    · exact le_rfl
    · next higher => exact not_lt.mp higher

def ZeroAtHome (w : TopologyWrapper) (closest : List (String × Nat × String)) : Prop :=
  ∀ nodeName saved, find nodeName closest = some saved →
    (saved.1 = 0 ↔ nodeName ∈ w.assocNodes saved.2)

theorem ZeroAtHome.saveLower (zero : ZeroAtHome w closest)
    (home : entry.2 = 0 ↔ entry.1 ∈ w.assocNodes popSiteName) :
    ZeroAtHome w (saveLower popSiteName closest entry) := by
  intro nodeName saved found
  rw [Terragraph.saveLower, find_upsert] at found
  split at found
  · next here =>
    subst here
    cases old : find entry.1 closest with
    | none =>
      rw [old] at found
      simp only [Option.getD_none, lt_irrefl, if_false, Option.some.injEq] at found
      rw [← found]
      exact home
    | some =>
      rw [old] at found
      simp only [Option.getD_some, Option.some.injEq] at found
      split at found
      · rw [← found]
        exact home
      · rw [← found]
        exact zero _ _ old
  · exact zero nodeName saved found

/-- A POP node is grouped with its own site. -/
theorem batch_popNode (invariant : SiteInvariant w) {node : Node}
    (member : node ∈ w.topology.nodes) (isPop : node.popNode = true) :
    (node.name, 0, node.siteName) ∈ batchNodesToPopSites order w := by
  have isPopSite : node.siteName ∈ getPopSiteNames w := by
    simp only [getPopSiteNames, mem_toFinset, mem_map, mem_filter]
    exact ⟨node, ⟨member, isPop⟩, rfl⟩
  have atHome := (invariant.assoc node.siteName node.name).mpr ⟨node, member, rfl, rfl⟩
  have zero : ZeroAtHome w (batchNodesToPopSites order w) := by
    refine foldlRecOn (motive := ZeroAtHome w) _ _ (fun _ _ found => by cases found) ?_
    intro _ holds _ _
    exact foldlRecOn (motive := ZeroAtHome w) _ _ holds fun _ holds entry listed =>
      holds.saveLower (getNodeDistances_eq_zero_iff invariant listed)
  -- the search from the node's own site finds it without a hop
  have start : (node.name, 0) ∈ getNodeDistancesFromPopSite order w node.siteName := by
    obtain ⟨⟨_, hops⟩, listed, rfl⟩ := mem_map.mp
      ((mem_getNodeDistancesFromPopSite invariant isPopSite node.name).mpr
        ⟨node.siteName, .refl, atHome⟩)
    have noHop : hops = 0 := (getNodeDistances_eq_zero_iff invariant listed).mpr atHome
    exact noHop ▸ listed
  have saved : AtMost node.name 0 (batchNodesToPopSites order w) := by
    apply Guarded.foldl_makes (Q := (· = node.siteName)) _ _
      (.inl ⟨_, (order.mem_toList _ _).mpr isPopSite, rfl⟩)
    · intro _ popSiteName _ atMost
      exact foldlRecOn (motive := AtMost node.name 0) _ _ atMost
        fun _ holds entry _ => holds.saveLower popSiteName entry
    · rintro closest _ rfl
      apply Guarded.foldl_makes (Q := (· = (node.name, 0))) _ _ (.inl ⟨_, start, rfl⟩)
      · exact fun _ entry _ holds => holds.saveLower node.siteName entry
      · rintro closest _ rfl
        exact atMost_saveLower node.siteName closest (node.name, 0)
  obtain ⟨⟨hops, popSiteName⟩, found, atMost⟩ := saved
  have isZero : hops = 0 := le_zero.mp atMost
  have there : node.name ∈ w.assocNodes popSiteName := (zero node.name _ found).mp isZero
  rw [← find_eq_some_iff (nodup_batchNodesToPopSites order), found, isZero,
    invariant.site_unique there atHome]

def SavesPopSites (w : TopologyWrapper) (closest : List (String × Nat × String)) : Prop :=
  ∀ entry ∈ closest, entry.2.2 ∈ getPopSiteNames w

theorem SavesPopSites.saveLower (holds : SavesPopSites w closest)
    (isPop : popSiteName ∈ getPopSiteNames w) (entry : String × Nat) :
    SavesPopSites w (saveLower popSiteName closest entry) := by
  refine forall_mem_upsert (fun saved : Nat × String => saved.2 ∈ getPopSiteNames w) holds ?_ ?_
  · intro _ wasPop
    split
    · exact isPop
    · exact wasPop
  · split
    · exact isPop
    · exact isPop

theorem batch_isPopSite : SavesPopSites w (batchNodesToPopSites order w) := by
  refine foldlRecOn (motive := SavesPopSites w) _ _ (fun _ none => by cases none) ?_
  intro _ holds popSiteName listed
  have isPop : popSiteName ∈ getPopSiteNames w := (order.mem_toList _ _).mp listed
  exact foldlRecOn (motive := SavesPopSites w) _ _ holds
    fun _ holds entry _ => holds.saveLower isPop entry

end PopNode

end Terragraph
