/-
Module: Terragraph.Topology.Sites
Purpose: Nodes, sites and the map from sites to node names stay consistent in every run.
Trusted boundary: none
Main exports: SiteInvariant, node_and_site_indices_consistent
-/
import Terragraph.Topology.Run

namespace Terragraph

open Guarded Function List TopologyWrapper KeyIndex

/-- Consistency of nodes, sites, their two indices and the association sets. -/
structure SiteInvariant (w : TopologyWrapper) : Prop where
  nodeIndex : w.ExactNodes
  siteIndex : KeyIndex.Exact Site.name w.topology.sites w.name2Site
  siteNamed : ∀ site ∈ w.topology.sites, site.name ≠ ""
  nodeSite : ∀ node ∈ w.topology.nodes, w.name2Site node.siteName ≠ none
  assoc : ∀ siteName nodeName, nodeName ∈ w.assocNodes siteName ↔
    ∃ node ∈ w.topology.nodes, node.name = nodeName ∧ node.siteName = siteName
  limit : ∀ siteName, (w.assocNodes siteName).card ≤ kMaxNumOfNodesPerSite

def placement (node : Node) : String × String := (node.name, node.siteName)

variable {given : Topology → Prop} {allowed : TopologyWrapper → TopologyOp → Prop}

namespace SiteInvariant

variable {w w' : TopologyWrapper}

/-! ### Changes the invariant does not see -/

section

variable (invariant : SiteInvariant w)
include invariant

theorem congr (nodes : w'.topology.nodes.map placement = w.topology.nodes.map placement)
    (sites : w'.topology.sites.map Site.name = w.topology.sites.map Site.name)
    (name2Node : w'.name2Node = w.name2Node) (name2Site : w'.name2Site = w.name2Site)
    (assocNodes : ∀ siteName, w'.assocNodes siteName = w.assocNodes siteName) :
    SiteInvariant w' := by
  have names : w'.topology.nodes.map Node.name = w.topology.nodes.map Node.name :=
    map_comp_of_map Prod.fst nodes
  have placed : ∀ (s s' : List Node), s.map placement = s'.map placement →
      ∀ node ∈ s, ∃ other ∈ s', other.name = node.name ∧ other.siteName = node.siteName := by
    intro s _ same _ member
    obtain ⟨other, otherMember, otherPlaced⟩ := exists_of_map same member
    exact ⟨other, otherMember, congrArg Prod.fst otherPlaced, congrArg Prod.snd otherPlaced⟩
  refine ⟨?_, ?_, ?_, ?_, ?_, ?_⟩
  · rw [ExactNodes, name2Node]
    exact invariant.nodeIndex.congr_keys names
  · rw [name2Site]
    exact invariant.siteIndex.congr_keys sites
  · intro _ member
    obtain ⟨other, otherMember, sameName⟩ := exists_of_map sites member
    rw [← sameName]
    exact invariant.siteNamed other otherMember
  · intro node member
    obtain ⟨other, otherMember, _, sameSite⟩ := placed _ _ nodes node member
    rw [name2Site, ← sameSite]
    exact invariant.nodeSite other otherMember
  · intro siteName nodeName
    rw [assocNodes, invariant.assoc]
    constructor
    · intro ⟨node, member, named, site⟩
      obtain ⟨other, otherMember, sameName, sameSite⟩ := placed _ _ nodes.symm node member
      exact ⟨other, otherMember, sameName.trans named, sameSite.trans site⟩
    · intro ⟨node, member, named, site⟩
      obtain ⟨other, otherMember, sameName, sameSite⟩ := placed _ _ nodes node member
      exact ⟨other, otherMember, sameName.trans named, sameSite.trans site⟩
  · intro siteName
    rw [assocNodes]
    exact invariant.limit siteName

theorem frame (linkFrame : LinkFrame w w') : SiteInvariant w' := by
  refine invariant.congr ?_ ?_ linkFrame.name2Node linkFrame.name2Site ?_
  · rw [linkFrame.nodes]
  · rw [linkFrame.sites]
  · intro siteName
    unfold assocNodes
    rw [linkFrame.site2AssocNodes]

theorem shape (same : SameShape w w') : SiteInvariant w' := by
  refine invariant.congr ?_ same.sites same.name2Node same.name2Site ?_
  · exact map_comp_of_map (f := Node.shape) placement same.nodes
  · intro siteName
    unfold assocNodes
    rw [same.site2AssocNodes]

theorem modifyNode (i : Nat) (f : Node → Node)
    (keeps : ∀ node, placement (f node) = placement node) : SiteInvariant (w.modifyNode i f) :=
  invariant.congr (map_modify_of_keeps placement _ i f fun node _ => keeps node) rfl rfl rfl
    fun _ => rfl

/-- The same with a new MAC index, which is none of the invariant's business. -/
theorem modifyMacs (i : Nat) (f : Node → Node) (mac2NodeName : String → Option String)
    (keeps : ∀ node, placement (f node) = placement node) :
    SiteInvariant { w.modifyNode i f with mac2NodeName } :=
  (invariant.modifyNode i f keeps).congr rfl rfl rfl rfl fun _ => rfl

theorem touchSite (siteName : String) : SiteInvariant (w.touchSite siteName) := by
  refine invariant.congr rfl rfl rfl rfl ?_
  intro other
  rw [assocNodes_of_update rfl]
  split
  · next same => rw [same]
  · rfl

theorem siteLinked (linked : SiteLinked w w') : SiteInvariant w' := by
  induction linked with
  | refl => exact invariant
  | touch siteName _ ih => exact ih.touchSite siteName
  | add _ _ _ ih => exact ih.frame (LinkFrame.pushLink _ _)

/-! ### Nodes -/

variable {node : Node}

theorem insertNode (checked : NodeChecked w node) : SiteInvariant (w.insertNode node) := by
  have assocNodes : ∀ siteName, (w.insertNode node).assocNodes siteName =
      if siteName = node.siteName then insert node.name (w.assocNodes node.siteName)
      else w.assocNodes siteName := assocNodes_of_update rfl
  refine ⟨invariant.nodeIndex.snoc checked.fresh, invariant.siteIndex, invariant.siteNamed, ?_, ?_,
    ?_⟩
  · exact forall_mem_append.mpr ⟨invariant.nodeSite, forall_mem_singleton.mpr checked.site⟩
  · intro siteName nodeName
    have inNodes : (∃ other ∈ (w.insertNode node).topology.nodes,
        other.name = nodeName ∧ other.siteName = siteName) ↔
        (∃ other ∈ w.topology.nodes, other.name = nodeName ∧ other.siteName = siteName) ∨
          (node.name = nodeName ∧ node.siteName = siteName) := by
      simp [TopologyWrapper.insertNode, TopologyWrapper.withNodes]
    rw [inNodes, assocNodes, ← invariant.assoc]
    split
    · next same =>
      rw [Finset.mem_insert, eq_comm, same, or_comm]
      exact or_congr_right (and_iff_left rfl).symm
    · next other => exact (or_iff_left fun isNew => other isNew.2.symm).symm
  · intro siteName
    rw [assocNodes]
    split
    · exact (Finset.card_insert_le _ _).trans checked.room
    · exact invariant.limit siteName

theorem exists_site (member : node ∈ w.topology.nodes) :
    ∃ site ∈ w.topology.sites, site.name = node.siteName := by
  obtain ⟨i, stored⟩ := Option.ne_none_iff_exists'.mp (invariant.nodeSite node member)
  obtain ⟨site, present, named⟩ := (invariant.siteIndex _ i).mp stored
  exact ⟨site, mem_of_getElem? present, named⟩

variable {i : Nat}

theorem removeNode (stored : w.name2Node node.name = some i)
    (present : w.topology.nodes[i]? = some node) :
    SiteInvariant (w.removeNode i node) := by
  have member := mem_of_getElem? present
  obtain ⟨site, isSite, named⟩ := invariant.exists_site member
  have hasSite : node.siteName ≠ "" := named ▸ invariant.siteNamed site isSite
  have assocNodes : ∀ siteName, (w.removeNode i node).assocNodes siteName =
      if siteName = node.siteName then (w.assocNodes node.siteName).erase node.name
      else w.assocNodes siteName := by
    apply assocNodes_of_update
    rw [TopologyWrapper.removeNode, if_neg hasSite]
    rfl
  have remaining := fun other : Node =>
    invariant.nodeIndex.mem_eraseIdx_iff stored (r := other)
  refine ⟨?_, ?_, ?_, ?_, ?_, ?_⟩
  · rw [ExactNodes, removeNode_nodes, removeNode_name2Node]
    exact invariant.nodeIndex.eraseIdx stored
  · rw [removeNode_sites, removeNode_name2Site]
    exact invariant.siteIndex
  · rw [removeNode_sites]
    exact invariant.siteNamed
  · intro other otherMember
    rw [removeNode_nodes, remaining] at otherMember
    rw [removeNode_name2Site]
    exact invariant.nodeSite other otherMember.1
  · intro siteName nodeName
    rw [assocNodes, removeNode_nodes]
    simp only [remaining]
    split
    · next same =>
      rw [Finset.mem_erase, invariant.assoc, same]
      constructor
      · intro ⟨apart, other, otherMember, named, site⟩
        exact ⟨other, ⟨otherMember, by rw [named]; exact apart⟩, named, site⟩
      · intro ⟨other, ⟨otherMember, apart⟩, named, site⟩
        exact ⟨by rw [← named]; exact apart, other, otherMember, named, site⟩
    · next elsewhere =>
      rw [invariant.assoc]
      constructor
      · intro ⟨other, otherMember, named, site⟩
        refine ⟨other, ⟨otherMember, ?_⟩, named, site⟩
        -- a node of the same name would be the removed one, which stands at another site
        intro same
        cases inj_on_of_nodup_map invariant.nodeIndex.nodup otherMember member same
        exact elsewhere site.symm
      · intro ⟨other, ⟨otherMember, _⟩, named, site⟩
        exact ⟨other, otherMember, named, site⟩
  · intro siteName
    rw [assocNodes]
    split
    · exact (Finset.card_erase_le).trans (invariant.limit _)
    · exact invariant.limit siteName

theorem associated (member : node ∈ w.topology.nodes) :
    ∃ names, w.site2AssocNodes node.siteName = some names ∧
      w.assocNodes node.siteName = names ∧ node.name ∈ names := by
  have inSet := (invariant.assoc node.siteName node.name).mpr ⟨node, member, rfl, rfl⟩
  cases entry : w.site2AssocNodes node.siteName with
  | none => simp [assocNodes, entry] at inSet
  | some names =>
    have same : w.assocNodes node.siteName = names := by
      simp [assocNodes, entry]
    rw [same] at inSet
    exact ⟨names, rfl, same, inSet⟩

theorem renameNode {nodeName newName : String}
    (stored : w.name2Node nodeName = some i) (present : w.topology.nodes[i]? = some node)
    (fresh : w.name2Node newName = none) (given : Node) (sameSite : given.siteName = node.siteName) :
    SiteInvariant (renameNode nodeName newName i given w) := by
  have member := mem_of_getElem? present
  have named := invariant.nodeIndex.sound.key_eq stored present
  have free := invariant.nodeIndex.index_eq_none_iff.mp fresh
  obtain ⟨names, entry, namesEq, inSet⟩ := invariant.associated member
  rw [← sameSite] at entry
  have assocNodes := renameNode_assocNodes nodeName newName i given w entry
  refine ⟨?_, ?_, ?_, ?_, ?_, ?_⟩
  · rw [ExactNodes, renameNode_nodes, renameNode_name2Node]
    exact invariant.nodeIndex.rekey stored (fun _ _ => rfl) free
  · rw [renameNode_sites, renameNode_name2Site]
    exact invariant.siteIndex
  · rw [renameNode_sites]
    exact invariant.siteNamed
  · rw [renameNode_nodes, renameNode_name2Site]
    exact forall_mem_modify invariant.nodeSite fun old present =>
      invariant.nodeSite old (mem_of_getElem? present)
  · intro siteName other
    have inNodes : (∃ n ∈ (Terragraph.renameNode nodeName newName i given w).topology.nodes,
        n.name = other ∧ n.siteName = siteName) ↔
        (other ≠ nodeName ∧ ∃ n ∈ w.topology.nodes, n.name = other ∧ n.siteName = siteName) ∨
          (other = newName ∧ siteName = node.siteName) := by
      simp only [renameNode_nodes, invariant.nodeIndex.mem_modify_iff present, named]
      constructor
      · rintro ⟨n, rfl | ⟨nMember, apart⟩, rfl, site⟩
        · exact .inr ⟨rfl, site.symm⟩
        · exact .inl ⟨apart, n, nMember, rfl, site⟩
      · rintro (⟨apart, n, nMember, rfl, site⟩ | ⟨rfl, site⟩)
        · exact ⟨n, .inr ⟨nMember, apart⟩, rfl, site⟩
        · exact ⟨_, .inl rfl, rfl, site.symm⟩
    rw [inNodes, assocNodes, sameSite]
    split
    · next same =>
      subst same
      rw [Finset.mem_insert, Finset.mem_erase, ← namesEq, invariant.assoc, or_comm]
      exact or_congr_right (and_iff_left rfl).symm
    · next elsewhere =>
      rw [invariant.assoc]
      constructor
      · intro ⟨n, nMember, isOther, site⟩
        refine .inl ⟨?_, n, nMember, isOther, site⟩
        intro same
        cases inj_on_of_nodup_map invariant.nodeIndex.nodup nMember member
          (isOther.trans (same.trans named.symm))
        exact elsewhere site.symm
      · intro place
        rcases place with old | isNew
        · exact old.2
        · exact absurd isNew.2 elsewhere
  · intro siteName
    rw [assocNodes, sameSite]
    split
    · have bound := invariant.limit node.siteName
      rw [namesEq] at bound
      calc (insert newName (names.erase nodeName)).card
          ≤ (names.erase nodeName).card + 1 := Finset.card_insert_le _ _
        _ = names.card := by
          rw [← named]
          exact Finset.card_erase_add_one inSet
        _ ≤ kMaxNumOfNodesPerSite := bound
    · exact invariant.limit siteName

theorem getNode_eq {nodeName : String}
    (stored : w.name2Node nodeName = some i) (present : w.topology.nodes[i]? = some node) :
    w.getNode nodeName = some node :=
  invariant.nodeIndex.find_eq_some_iff.mpr
    ⟨mem_of_getElem? present, invariant.nodeIndex.sound.key_eq stored present⟩

/-! ### Sites -/

theorem pushSite {site : Site} (nonempty : site.name ≠ "")
    (fresh : w.name2Site site.name = none) : SiteInvariant (w.pushSite site) := by
  refine ⟨invariant.nodeIndex, invariant.siteIndex.push fresh, ?_, ?_, invariant.assoc,
    invariant.limit⟩
  · exact forall_mem_append.mpr ⟨invariant.siteNamed, forall_mem_singleton.mpr nonempty⟩
  · intro _ member
    obtain ⟨_, isSite, named⟩ := invariant.exists_site member
    rw [← named]
    exact refresh_ne_none (mem_append_left _ isSite)

variable {siteName : String}

theorem eraseSite (stored : w.name2Site siteName = some i) (unused : w.assocNodes siteName = ∅) :
    SiteInvariant (w.eraseSite siteName i) := by
  refine ⟨invariant.nodeIndex, invariant.siteIndex.eraseIdx stored, ?_, ?_, invariant.assoc,
    invariant.limit⟩
  · intro other member
    exact invariant.siteNamed other (mem_of_mem_eraseIdx member)
  · intro node member
    have elsewhere : node.siteName ≠ siteName := by
      intro same
      have inSet := (invariant.assoc siteName node.name).mpr ⟨node, member, rfl, same⟩
      rw [unused] at inSet
      exact absurd inSet (Finset.notMem_empty _)
    obtain ⟨_, isSite, named⟩ := invariant.exists_site member
    rw [← named]
    apply refresh_ne_none
    rw [invariant.siteIndex.mem_eraseIdx_iff stored]
    exact ⟨isSite, by rw [named]; exact elsewhere⟩

variable {newName : String}

theorem moveNodes_eq {names : Finset String} (entry : w.site2AssocNodes siteName = some names) :
    (moveNodesToSite names newName w).topology.nodes = w.topology.nodes.map fun node =>
      if node.siteName = siteName then { node with siteName := newName } else node := by
  have namesEq : w.assocNodes siteName = names := by simp [assocNodes, entry]
  apply ext_getElem?
  intro i
  simp only [moveNodesToSite, withNodes, getElem?_mapIdx, getElem?_map]
  cases present : w.topology.nodes[i]? with
  | none => rfl
  | some node =>
    have atSite : (∃ name ∈ names, w.name2Node name = some i) ↔ node.siteName = siteName := by
      rw [← namesEq]
      constructor
      · rintro ⟨name, inSet, stored⟩
        obtain ⟨_, otherMember, named, site⟩ := (invariant.assoc siteName name).mp inSet
        obtain ⟨_, presentFound, isName⟩ := (invariant.nodeIndex name i).mp stored
        cases present.symm.trans presentFound
        cases inj_on_of_nodup_map invariant.nodeIndex.nodup otherMember (mem_of_getElem? present)
          (named.trans isName.symm)
        exact site
      · intro site
        exact ⟨node.name, (invariant.assoc siteName node.name).mpr
          ⟨node, mem_of_getElem? present, rfl, site⟩, invariant.nodeIndex.index_eq present⟩
    simp only [Option.map_some, atSite]

/-- Nodes and association sets after `renameSite`, whether or not the site has an entry. -/
theorem renameSite_nodes (siteName newName : String) (i : Nat) :
    (renameSite siteName newName i w).topology.nodes = w.topology.nodes.map fun node =>
      if node.siteName = siteName then { node with siteName := newName } else node := by
  unfold renameSite
  cases entry : w.site2AssocNodes siteName with
  | some => exact invariant.moveNodes_eq entry
  | none =>
    have elsewhere : ∀ node ∈ w.topology.nodes, node.siteName ≠ siteName := by
      intro _ member same
      obtain ⟨_, entry', _⟩ := invariant.associated member
      rw [same, entry] at entry'
      cases entry'
    have unmoved : (w.topology.nodes.map fun node =>
        if node.siteName = siteName then { node with siteName := newName } else node) =
        w.topology.nodes.map fun node => node :=
      map_congr_left fun node member => if_neg (elsewhere node member)
    rw [unmoved, map_id']
    rfl

theorem renameSite_assocNodes (i : Nat)
    (apart : newName ≠ siteName) (vacant : ∀ node ∈ w.topology.nodes, node.siteName ≠ newName)
    (other : String) :
    (renameSite siteName newName i w).assocNodes other =
      if other = siteName then ∅ else if other = newName then w.assocNodes siteName
      else w.assocNodes other := by
  have noNodes : w.assocNodes newName = ∅ := by
    rw [Finset.eq_empty_iff_forall_notMem]
    intro nodeName inSet
    obtain ⟨node, member, _, site⟩ := (invariant.assoc newName nodeName).mp inSet
    exact vacant node member site
  unfold renameSite
  cases entry : w.site2AssocNodes siteName with
  | some =>
    simp only [assocNodes, modifySite, withSites, entry]
    by_cases isOld : other = siteName
    · simp [isOld]
    · by_cases isNew : other = newName
      · simp [isNew, apart]
      · simp [isOld, isNew]
  | none =>
    have same : w.assocNodes siteName = ∅ := by simp [assocNodes, entry]
    show w.assocNodes other = _
    split
    · next isOld => rw [isOld, same]
    · split
      · next isNew => rw [isNew, noNodes, same]
      · rfl

theorem renameSite {site : Site}
    (stored : w.name2Site siteName = some i) (present : w.topology.sites[i]? = some site)
    (renamed : newName ≠ site.name) (nonempty : newName ≠ "") (fresh : w.name2Site newName = none) :
    SiteInvariant (renameSite siteName newName i w) := by
  have named := invariant.siteIndex.sound.key_eq stored present
  have apart : newName ≠ siteName := by
    rw [← named]
    exact renamed
  have free := invariant.siteIndex.index_eq_none_iff.mp fresh
  have vacant : ∀ node ∈ w.topology.nodes, node.siteName ≠ newName := by
    intro node member same
    exact invariant.nodeSite node member (by rw [same]; exact fresh)
  have nodes := invariant.renameSite_nodes siteName newName i
  have assocNodes := invariant.renameSite_assocNodes i apart vacant
  obtain ⟨sites, name2Site, name2Node⟩ :
      (Terragraph.renameSite siteName newName i w).topology.sites =
          w.topology.sites.modify i (fun site => { site with name := newName }) ∧
        (Terragraph.renameSite siteName newName i w).name2Site =
          update (update w.name2Site newName (some i)) siteName none ∧
        (Terragraph.renameSite siteName newName i w).name2Node = w.name2Node := by
    unfold Terragraph.renameSite
    cases w.site2AssocNodes siteName <;> exact ⟨rfl, rfl, rfl⟩
  refine ⟨?_, ?_, ?_, ?_, ?_, ?_⟩
  · rw [ExactNodes, nodes, name2Node]
    apply invariant.nodeIndex.congr_keys
    rw [map_map]
    apply map_congr_left
    intro node _
    simp only [comp_apply]
    split <;> rfl
  · rw [sites, name2Site]
    exact invariant.siteIndex.rekey stored (fun _ _ => rfl) free
  · rw [sites]
    exact forall_mem_modify invariant.siteNamed fun _ _ => nonempty
  · intro _ member
    rw [nodes] at member
    obtain ⟨old, oldMember, rfl⟩ := mem_map.mp member
    rw [name2Site]
    split
    · simp [apart]
    · next elsewhere =>
      rw [update_of_ne elsewhere, update_of_ne (vacant old oldMember)]
      exact invariant.nodeSite old oldMember
  · intro other _
    rw [assocNodes, nodes]
    simp only [mem_map, exists_exists_and_eq_and, apply_ite Node.name, apply_ite Node.siteName,
      ite_self]
    have moved : ∀ old ∈ w.topology.nodes,
        (if old.siteName = siteName then newName else old.siteName) = other ↔
          other ≠ siteName ∧ old.siteName = if other = newName then siteName else other := by
      intro old member
      have elsewhere := vacant old member
      grind
    split
    · next isOld =>
      refine iff_of_false (Finset.notMem_empty _) ?_
      rintro ⟨old, member, _, site⟩
      exact ((moved old member).mp site).1 isOld
    · next notOld =>
      rw [← apply_ite w.assocNodes, invariant.assoc]
      refine exists_congr fun old => and_congr_right fun member => and_congr_right fun _ => ?_
      rw [moved old member, and_iff_right notOld]
  · intro other
    rw [assocNodes]
    split
    · simp
    · rw [← apply_ite w.assocNodes]
      exact invariant.limit _

end

/-! ### Runs -/

theorem sitesPopulated (populated : SitesPopulated w) : SiteInvariant w := by
  obtain ⟨siteIndex, siteNamed, noNodes, name2Node, _, site2AssocNodes⟩ := populated
  refine ⟨?_, siteIndex, siteNamed, ?_, ?_, ?_⟩
  · intro _ i
    simp [noNodes, name2Node]
  · intro _ member
    rw [noNodes] at member
    cases member
  · intro siteName nodeName
    simp [assocNodes, site2AssocNodes, noNodes]
  · intro siteName
    simp [assocNodes, site2AssocNodes]

variable {mac : MacUtils}

theorem populateMaps (run : (Terragraph.populateMaps mac true).run w = .ok () w') :
    SiteInvariant w' :=
  (populateMaps_ok run).2 SiteInvariant (fun _ => sitesPopulated)
    (fun _ _ holds => holds.insertNode) (fun _ _ holds => holds.frame)

theorem accepted (start : Accepted mac given w) : SiteInvariant w := by
  obtain ⟨_, _, _, _, built⟩ := start
  obtain ⟨v, populated, linked⟩ := construct_ok built
  exact (populateMaps populated).siteLinked linked

theorem step {op : TopologyOp} (invariant : SiteInvariant w) (taken : Step mac w op w') :
    SiteInvariant w' := by
  cases step_effect invariant.nodeIndex taken with
  | attributes same => exact invariant.shape same
  | addNode checked linked => exact (invariant.insertNode checked).siteLinked linked
  | delNode stored present unlinked =>
    exact (invariant.removeNode stored present).frame (delLinks_frame unlinked)
  | retype =>
    exact invariant.modifyNode _ _ fun node => by simp [placement]
  | @rename _ newNode i node stored present _ _ _ fresh =>
    have edited := invariant.modifyNode i (editProps newNode) fun n => by simp [placement]
    exact edited.renameNode stored (modifyNode_present present) fresh node (by simp)
  | addLink => exact invariant.frame (LinkFrame.pushLink w _)
  | delLink => exact invariant.frame (LinkFrame.eraseLink w _ _)
  | addSite nonempty fresh => exact invariant.pushSite nonempty fresh
  | delSite stored unused => exact invariant.eraseSite stored unused
  | renameSite stored present same _ renamed nonempty fresh =>
    obtain ⟨_, presentV, named⟩ := same.site present
    refine (invariant.shape same).renameSite ?_ presentV ?_ nonempty ?_
    · rw [same.name2Site]
      exact stored
    · rw [named]
      exact renamed
    · rw [same.name2Site]
      exact fresh
  | setNodeMacByName =>
    exact invariant.modifyMacs _ (withMacAddr _ _) _ fun _ => rfl
  | changeNodeWlanMac =>
    refine (invariant.frame (LinkFrame.withLinks w _)).modifyMacs _ _ _ ?_
    intro node
    rfl
  | addNodeWlanMacs =>
    refine invariant.modifyMacs _ _ _ ?_
    intro node
    rfl
  | deleteNodeWlanMacs _ _ _ dropped =>
    refine SiteInvariant.frame ?_ (deleteNodeWlanMacs_frame dropped)
    exact invariant.modifyMacs _ (dropWlanMacs _) _ fun _ => rfl

theorem of_runsTo (reached : RunsTo mac given allowed w) :
    SiteInvariant w :=
  reached.invariant SiteInvariant (fun _ => accepted) fun _ _ _ holds _ taken => holds.step taken

end SiteInvariant

/-! ### Names and types of nodes -/

def NodesValid (w : TopologyWrapper) : Prop :=
  ∀ node ∈ w.topology.nodes,
    node.name ≠ "" ∧ (node.nodeType = .DN ∨ node.nodeType = .CN)

def nameAndType (node : Node) : String × NodeType := (node.name, node.nodeType)

theorem SiteLinked.nodes {w w' : TopologyWrapper} (linked : SiteLinked w w') :
    w'.topology.nodes = w.topology.nodes := by
  induction linked with
  | refl => rfl
  | touch _ _ ih | add _ _ _ ih => exact ih

namespace NodesValid

variable {w w' : TopologyWrapper}

section

variable (valid : NodesValid w)
include valid

theorem congr (same : w'.topology.nodes.map nameAndType = w.topology.nodes.map nameAndType) :
    NodesValid w' := by
  intro _ member
  obtain ⟨old, oldMember, sameOld⟩ := exists_of_map same member
  simp only [nameAndType, Prod.mk.injEq] at sameOld
  rw [← sameOld.1, ← sameOld.2]
  exact valid old oldMember

theorem subset (nodes : w'.topology.nodes ⊆ w.topology.nodes) : NodesValid w' :=
  fun node member => valid node (nodes member)

theorem insertNode {node : Node} (checked : NodeChecked w node) : NodesValid (w.insertNode node) :=
  forall_mem_append.mpr ⟨valid, forall_mem_singleton.mpr ⟨checked.named, checked.typed⟩⟩

theorem edited (i : Nat) (newNode : Node) : NodesValid (w.modifyNode i (editProps newNode)) := by
  refine forall_mem_modify valid ?_
  intro old present
  obtain ⟨named, typed⟩ := valid old (mem_of_getElem? present)
  refine ⟨by rw [editProps_name]; exact named, ?_⟩
  unfold editProps
  by_cases newType : hasNewType old newNode
  · have isNamed := newType.2
    rw [if_pos newType]
    revert isNamed
    cases newNode.nodeType <;> simp [NodeType.named]
  · split <;> exact typed

theorem renameNode {newName : String} (nonempty : newName ≠ "")
    (nodeName : String) (i : Nat) (given : Node) :
    NodesValid (Terragraph.renameNode nodeName newName i given w) := by
  unfold NodesValid
  rw [renameNode_nodes]
  exact forall_mem_modify valid fun old present =>
    ⟨nonempty, (valid old (mem_of_getElem? present)).2⟩

end

variable {mac : MacUtils}

theorem populateMaps (run : (Terragraph.populateMaps mac true).run w = .ok () w') :
    NodesValid w' := by
  refine (populateMaps_ok run).2 NodesValid ?_ (fun _ _ holds => holds.insertNode) ?_
  · intro v populatedSites _ member
    rw [populatedSites.noNodes] at member
    cases member
  · intro v _ holds frame
    exact holds.congr (by rw [frame.nodes])

theorem accepted (start : Accepted mac given w) : NodesValid w := by
  obtain ⟨_, _, _, _, built⟩ := start
  obtain ⟨v, populated, linked⟩ := construct_ok built
  exact (populateMaps populated).congr (by rw [linked.nodes])

theorem step {op : TopologyOp} (valid : NodesValid w) (sites : SiteInvariant w)
    (taken : Step mac w op w') : NodesValid w' := by
  cases step_effect sites.nodeIndex taken with
  | attributes same =>
    exact valid.congr (map_comp_of_map (f := Node.shape) nameAndType same.nodes)
  | addNode checked linked => exact (valid.insertNode checked).congr (by rw [linked.nodes])
  | delNode _ _ unlinked =>
    apply valid.subset
    rw [(delLinks_frame unlinked).nodes, removeNode_nodes]
    exact eraseIdx_subset
  | retype => exact valid.edited _ _
  | rename _ _ _ _ nonempty =>
    exact (valid.edited _ _).renameNode nonempty _ _ _
  | addLink checked limits | delLink stored | addSite nonempty fresh | delSite stored unused =>
    exact valid.congr rfl
  | renameSite _ _ same sameNodes =>
    apply valid.congr
    rw [(sites.shape same).renameSite_nodes, map_map, sameNodes]
    apply map_congr_left
    intro node _
    simp only [comp_apply]
    split <;> rfl
  | setNodeMacByName =>
    exact valid.congr (map_modify_of_keeps nameAndType _ _ (withMacAddr _ _) fun _ _ => rfl)
  | changeNodeWlanMac =>
    exact valid.congr (map_modify_of_keeps nameAndType _ _ (withWlanMac _ _) fun _ _ => rfl)
  | addNodeWlanMacs =>
    refine valid.congr (map_modify_of_keeps nameAndType _ _ _ ?_)
    intro node _
    rfl
  | deleteNodeWlanMacs _ _ _ dropped =>
    apply valid.congr
    rw [(deleteNodeWlanMacs_frame dropped).nodes]
    exact map_modify_of_keeps nameAndType _ _ (dropWlanMacs _) fun _ _ => rfl

theorem of_runsTo (reached : RunsTo mac given allowed w) :
    NodesValid w := by
  induction reached with
  | start initial => exact accepted initial
  | step reached _ taken valid => exact valid.step (.of_runsTo reached) taken

end NodesValid

/-! ### Main result -/

theorem SiteInvariant.nodes_at_site {w : TopologyWrapper} (invariant : SiteInvariant w)
    (siteName : String) :
    (w.topology.nodes.filter fun node => node.siteName = siteName).length =
      (w.assocNodes siteName).card := by
  have names : w.assocNodes siteName =
      ((w.topology.nodes.filter fun node => node.siteName = siteName).map Node.name).toFinset := by
    ext nodeName
    rw [invariant.assoc, mem_toFinset, mem_map]
    constructor
    · intro ⟨node, member, named, site⟩
      exact ⟨node, mem_filter.mpr ⟨member, by simpa using site⟩, named⟩
    · intro ⟨node, member, named⟩
      obtain ⟨member, site⟩ := mem_filter.mp member
      exact ⟨node, member, named, by simpa using site⟩
  have distinct : ((w.topology.nodes.filter fun node => node.siteName = siteName).map
      Node.name).Nodup :=
    invariant.nodeIndex.nodup.sublist (filter_sublist.map Node.name)
  rw [names, toFinset_card_of_nodup distinct, length_map]

/-- In every reachable state the indices are exact over unique names, every node stands at a site,
the association sets list the nodes, and no site has more than `kMaxNumOfNodesPerSite`. -/
theorem node_and_site_indices_consistent (mac : MacUtils) (w : TopologyWrapper)
    (reached : Reachable mac w) :
    (w.ExactNodes ∧
      (w.topology.nodes.map Node.name).Nodup) ∧
    (KeyIndex.Exact Site.name w.topology.sites w.name2Site ∧
      (w.topology.sites.map Site.name).Nodup) ∧
    (∀ node ∈ w.topology.nodes, ∃ site ∈ w.topology.sites, site.name = node.siteName) ∧
    ∀ site ∈ w.topology.sites, (∀ nodeName, nodeName ∈ w.assocNodes site.name ↔
        ∃ node ∈ w.topology.nodes, node.name = nodeName ∧ node.siteName = site.name) ∧
      (w.topology.nodes.filter fun node => node.siteName = site.name).length ≤
        kMaxNumOfNodesPerSite := by
  have invariant := SiteInvariant.of_runsTo reached
  refine ⟨⟨invariant.nodeIndex, invariant.nodeIndex.nodup⟩,
    ⟨invariant.siteIndex, invariant.siteIndex.nodup⟩, ?_, ?_⟩
  · exact fun _ member => invariant.exists_site member
  · intro site _
    refine ⟨invariant.assoc site.name, ?_⟩
    rw [invariant.nodes_at_site]
    exact invariant.limit site.name

/-- The run adds two nodes, renames their site and the first node, and deletes the second. -/
theorem node_and_site_indices_consistent_after_renames :
    ∃ w, build (.ofCanonical [] (by decide)) .sorted { sites := [{ name := "S1" }] } false
        [.addNode { name := "u", siteName := "S1" }, .addNode { name := "x", siteName := "S1" },
          .editSite "S1" { name := "S2" }, .editNode "u" { name := "v" }, .delNode "x" false] =
        .ok w ∧
      w.topology.nodes.map placement = [("v", "S2")] ∧
      w.ExactNodes ∧
      ∀ site ∈ w.topology.sites, ∀ nodeName, nodeName ∈ w.assocNodes site.name ↔
        ∃ node ∈ w.topology.nodes, node.name = nodeName ∧ node.siteName = site.name := by
  refine build_exists (fun w => w.topology.nodes.map placement) [("v", "S2")] (by decide) ?_
  intro w built nodes
  have reached := reachable_of_built built
  have consistent := node_and_site_indices_consistent _ w reached
  exact ⟨nodes, consistent.1.1, fun site member => (consistent.2.2.2 site member).1⟩

end Terragraph
