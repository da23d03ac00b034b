/-
Module: Terragraph.Topology.Links
Purpose: The link vector and its name index.
Trusted boundary: none
Main exports: CollisionFree, link_index_exact_fails
-/
import Terragraph.Topology.Sites

namespace Terragraph

open Guarded List TopologyWrapper Function KeyIndex

/-! ### Node types behind names -/

theorem nodeTypeOf_eq (w : TopologyWrapper) (nodeName : String) : w.nodeTypeOf nodeName =
      (w.name2Node nodeName).bind fun i => (w.topology.nodes.map Node.nodeType)[i]? := by
  unfold nodeTypeOf getNode find
  cases w.name2Node nodeName with
  | none => rfl
  | some => simp

variable {w w' : TopologyWrapper}

theorem nodeTypeOf_congr (index : w'.name2Node = w.name2Node)
    (types : w'.topology.nodes.map Node.nodeType = w.topology.nodes.map Node.nodeType) :
    w'.nodeTypeOf = w.nodeTypeOf := by
  funext nodeName
  rw [nodeTypeOf_eq, nodeTypeOf_eq, index, types]

theorem getNode_ne_none_iff (w : TopologyWrapper) (nodeName : String) :
    w.getNode nodeName ≠ none ↔ w.nodeTypeOf nodeName ≠ none := by
  unfold nodeTypeOf
  cases w.getNode nodeName <;> simp

variable {nodeName : String}

theorem SiteInvariant.nodeTypeOf_eq_some_iff (sites : SiteInvariant w) {nodeType : NodeType} :
    w.nodeTypeOf nodeName = some nodeType ↔
      ∃ node ∈ w.topology.nodes, node.name = nodeName ∧ node.nodeType = nodeType := by
  unfold nodeTypeOf getNode
  rw [Option.map_eq_some_iff]
  simp only [sites.nodeIndex.find_eq_some_iff, and_assoc]

theorem SiteInvariant.nodeTypeOf_eq_of_nodes (sites : SiteInvariant w) (sites' : SiteInvariant w')
    (nodes : ∀ node : Node, node.name = nodeName →
      (node ∈ w'.topology.nodes ↔ node ∈ w.topology.nodes)) :
    w'.nodeTypeOf nodeName = w.nodeTypeOf nodeName := by
  apply Option.ext
  intro nodeType
  rw [sites'.nodeTypeOf_eq_some_iff, sites.nodeTypeOf_eq_some_iff]
  exact exists_congr fun node => and_congr_left fun named => nodes node named.1

theorem nodeTypeOf_insertNode {node : Node} (sites : SiteInvariant w) (checked : NodeChecked w node)
    (other : nodeName ≠ node.name) :
    (w.insertNode node).nodeTypeOf nodeName = w.nodeTypeOf nodeName := by
  refine sites.nodeTypeOf_eq_of_nodes (sites.insertNode checked) fun _ named => ?_
  refine mem_append.trans (or_iff_left fun new => other ?_)
  rw [← named, mem_singleton.mp new]

variable {i : Nat}

theorem nodeTypeOf_removeNode {node : Node} (sites : SiteInvariant w)
    (stored : w.name2Node node.name = some i) (present : w.topology.nodes[i]? = some node)
    (other : nodeName ≠ node.name) :
    (w.removeNode i node).nodeTypeOf nodeName = w.nodeTypeOf nodeName := by
  refine sites.nodeTypeOf_eq_of_nodes (sites.removeNode stored present) fun _ named => ?_
  rw [removeNode_nodes, sites.nodeIndex.mem_eraseIdx_iff stored]
  exact and_iff_left (named ▸ other)

variable {newName : String}

theorem nodeTypeOf_renameNode (stored : w.name2Node nodeName = some i)
    (fresh : w.name2Node newName = none) (given : Node) :
    (renameNode nodeName newName i given w).nodeTypeOf newName = w.nodeTypeOf nodeName ∧
      ∀ other, other ≠ nodeName → other ≠ newName →
        (renameNode nodeName newName i given w).nodeTypeOf other = w.nodeTypeOf other := by
  have apart : newName ≠ nodeName := by
    intro same
    rw [same, stored] at fresh
    cases fresh
  have types : (renameNode nodeName newName i given w).topology.nodes.map Node.nodeType =
      w.topology.nodes.map Node.nodeType := by
    rw [renameNode_nodes]
    exact map_modify_of_keeps Node.nodeType _ i _ fun _ _ => rfl
  constructor
  · rw [nodeTypeOf_eq, nodeTypeOf_eq, types, renameNode_name2Node, update_of_ne apart,
      update_self, stored]
  · intro _ notOld notNew
    rw [nodeTypeOf_eq, nodeTypeOf_eq, types, renameNode_name2Node, update_of_ne notOld,
      update_of_ne notNew]

theorem nodeTypeOf_modifyNode {nodeName other : String} {f : Node → Node} (sites : SiteInvariant w)
    (stored : w.name2Node nodeName = some i) (apart : other ≠ nodeName) :
    (w.modifyNode i f).nodeTypeOf other = w.nodeTypeOf other := by
  unfold nodeTypeOf getNode find
  cases storedOther : w.name2Node other with
  | none => simp [modifyNode, withNodes, storedOther]
  | some j =>
    have elsewhere : i ≠ j := by
      rintro rfl
      obtain ⟨_, present, isName⟩ := (sites.nodeIndex nodeName i).mp stored
      exact apart ((sites.nodeIndex.sound.key_eq storedOther present).symm.trans isName)
    simp [modifyNode, withNodes, storedOther, elsewhere]

variable {link : Link}

/-! ### Links of a node -/

def incident (nodeName : String) (link : Link) : Prop :=
  link.aNodeName = nodeName ∨ link.zNodeName = nodeName

instance (nodeName : String) (link : Link) : Decidable (incident nodeName link) :=
  inferInstanceAs (Decidable (_ ∨ _))

theorem LinkWellFormed.congr (wellFormed : LinkWellFormed w link)
    (types : ∀ name, incident name link → w'.nodeTypeOf name = w.nodeTypeOf name) :
    LinkWellFormed w' link := by
  obtain ⟨aNode, zNode, notBothCn, wired, ordered, named⟩ := wellFormed
  rw [getNode_ne_none_iff] at aNode zNode
  rw [← types _ (.inl rfl)] at aNode notBothCn
  rw [← types _ (.inr rfl)] at zNode notBothCn
  rw [← getNode_ne_none_iff] at aNode zNode
  exact ⟨aNode, zNode, notBothCn, wired, ordered, named⟩

theorem not_incident_iff :
    ¬ incident nodeName link ↔ link.aNodeName ≠ nodeName ∧ link.zNodeName ≠ nodeName :=
  not_or

theorem mem_getLinksByNodeName :
    link ∈ w.getLinksByNodeName nodeName ↔ link ∈ w.topology.links ∧ incident nodeName link := by
  simp [getLinksByNodeName, incident]

theorem not_incident_of_no_links (noLinks : w.getLinksByNodeName nodeName = []) (link : Link)
    (member : link ∈ w.topology.links) :
    ¬ incident nodeName link := by
  intro ends
  have inLinks := mem_getLinksByNodeName.mpr ⟨member, ends⟩
  rw [noLinks] at inLinks
  cases inLinks

variable {macs : List String}

theorem selectedLinks_subset :
    selectedLinks (w.getLinksByNodeName nodeName) macs ⊆ w.topology.links := by
  intro _ selected
  obtain ⟨_, _, ofNode, _⟩ := mem_selectedLinks.mp selected
  exact (mem_getLinksByNodeName.mp ofNode).1

def TopologyWrapper.linksAt (w : TopologyWrapper) (nodeName : String) : List (Nat × Link) :=
  (w.topology.links.zipIdx.filter fun entry => incident nodeName entry.1).map fun entry =>
    (entry.2, entry.1)

theorem mem_linksAt {target : Nat × Link} : target ∈ w.linksAt nodeName ↔
      w.topology.links[target.1]? = some target.2 ∧ incident nodeName target.2 := by
  obtain ⟨i, link⟩ := target
  simp only [linksAt, mem_map, mem_filter, decide_eq_true_eq, Prod.exists, Prod.mk.injEq]
  constructor
  · intro ⟨_, j, ⟨entry, ends⟩, isI, isLink⟩
    subst isI isLink
    exact ⟨mem_zipIdx_iff_getElem?.mp entry, ends⟩
  · intro ⟨present, ends⟩
    exact ⟨link, i, ⟨mem_zipIdx_iff_getElem?.mpr present, ends⟩, rfl, rfl⟩

theorem linksAt_map_snd (w : TopologyWrapper) (nodeName : String) :
    (w.linksAt nodeName).map Prod.snd = w.getLinksByNodeName nodeName := by
  have projected := filter_map (f := Prod.fst) (l := w.topology.links.zipIdx)
    (p := fun link => decide (incident nodeName link))
  rw [zipIdx_map_fst] at projected
  unfold linksAt
  rw [map_map]
  exact projected.symm

theorem linksAt_distinct (w : TopologyWrapper) (nodeName : String) :
    ((w.linksAt nodeName).map Prod.fst).Nodup := by
  have positions : (w.topology.links.zipIdx.map Prod.snd).Nodup := by
    rw [zipIdx_map_snd]
    exact nodup_range'
  unfold linksAt
  rw [map_map]
  exact positions.sublist (filter_sublist.map Prod.snd)

/-! ### Renaming a node, seen from its links -/

def TopologyWrapper.linkTable (w : TopologyWrapper) : Rekey.Table Link String :=
  ⟨w.topology.links, w.name2Link⟩

theorem renameLink_table (nodeName newName : String) (w : TopologyWrapper) (link : Link) :
    (renameLink nodeName newName w link).linkTable =
      Rekey.rekey Link.name (renameLinkEnd nodeName newName) w.linkTable link.name := by
  unfold renameLink Rekey.rekey linkTable
  dsimp only
  cases w.name2Link link.name with
  | none => rfl
  | some i =>
    cases present : w.topology.links[i]? with
    | none => simp only [present]
    | some => simp only [present]; rfl

theorem renameLinks_table (nodeName newName : String) (links : List Link) (w : TopologyWrapper) :
    (links.foldl (renameLink nodeName newName) w).linkTable =
      Rekey.rekeyAll Link.name (renameLinkEnd nodeName newName) w.linkTable
        (links.map Link.name) := by
  induction links generalizing w with
  | nil => rfl
  | cons _ _ ih =>
    rw [foldl_cons, ih, renameLink_table]
    rfl

/-- The link loop of `editNode` rewrites the links of the node through the index. -/
theorem renameNode_table (nodeName newName : String) (i : Nat) (node : Node) (w : TopologyWrapper) :
    (renameNode nodeName newName i node w).linkTable =
      Rekey.rekeyAll Link.name (renameLinkEnd nodeName newName) w.linkTable
        (Rekey.keysOf Link.name (w.linksAt nodeName)) := by
  have keys : Rekey.keysOf Link.name (w.linksAt nodeName) =
      (w.getLinksByNodeName nodeName).map Link.name := by
    rw [← linksAt_map_snd, map_map]
    rfl
  rw [keys]
  exact renameLinks_table nodeName newName (w.getLinksByNodeName nodeName) _

theorem linksAt_present (w : TopologyWrapper) (nodeName : String) :
    Rekey.Present w.linkTable (w.linksAt nodeName) :=
  fun _ member => (mem_linksAt.mp member).1

def renamedLinkName (nodeName newName : String) (link : Link) : String :=
  (renameLinkEnd nodeName newName link).name

/-- The links of the renamed node get distinct names that no link of the topology has. -/
def CollisionFree (w : TopologyWrapper) (nodeName newName : String) : Prop :=
  (w.getLinksByNodeName nodeName).Pairwise
      (fun first later =>
        renamedLinkName nodeName newName first ≠ renamedLinkName nodeName newName later) ∧
    ∀ link ∈ w.getLinksByNodeName nodeName, ∀ other ∈ w.topology.links,
      other.name ≠ renamedLinkName nodeName newName link

instance (w : TopologyWrapper) (nodeName newName : String) :
    Decidable (CollisionFree w nodeName newName) :=
  inferInstanceAs (Decidable (_ ∧ _))

def substLink (nodeName newName : String) (link : Link) : Link :=
  if incident nodeName link then renameLinkEnd nodeName newName link else link

section Rename

/-- If every lookup of the link loop finds its own link, the loop substitutes the name. -/
theorem renameNode_links (i : Nat) (node : Node)
    (resolves : Rekey.Resolves Link.name (renameLinkEnd nodeName newName) w.linkTable
      (w.linksAt nodeName)) :
    (renameNode nodeName newName i node w).topology.links =
      w.topology.links.map (substLink nodeName newName) := by
  have table := congrArg Rekey.Table.records (renameNode_table nodeName newName i node w)
  apply ext_getElem?
  intro j
  rw [show (renameNode nodeName newName i node w).topology.links = _ from table,
    resolves.records (linksAt_present w nodeName) (linksAt_distinct w nodeName),
    getElem?_map]
  have member : j ∈ (w.linksAt nodeName).map Prod.fst ↔
      ∃ link, w.topology.links[j]? = some link ∧ incident nodeName link := by
    rw [mem_map]
    constructor
    · intro ⟨target, inTargets, isJ⟩
      rw [← isJ]
      exact ⟨target.2, mem_linksAt.mp inTargets⟩
    · intro ⟨link, found⟩
      exact ⟨(j, link), mem_linksAt.mpr found, rfl⟩
  cases present : w.topology.links[j]? with
  | none => simp [linkTable, present]
  | some link =>
    by_cases ends : incident nodeName link
    · have inside := member.mpr ⟨link, present, ends⟩
      simp [linkTable, present, inside, substLink, ends]
    · have outside : j ∉ (w.linksAt nodeName).map Prod.fst := by
        intro inside
        obtain ⟨_, presentOther, otherEnds⟩ := member.mp inside
        cases present.symm.trans presentOther
        exact ends otherEnds
      simp [linkTable, present, outside, substLink, ends]

theorem CollisionFree.resolves (exact : w.ExactLinks)
    (free : CollisionFree w nodeName newName) :
    Rekey.Resolves Link.name (renameLinkEnd nodeName newName) w.linkTable (w.linksAt nodeName) := by
  rw [Rekey.resolves_iff exact.sound (linksAt_present w nodeName) (linksAt_distinct w nodeName)]
  refine ⟨fun _ member => exact.index_eq (mem_linksAt.mp member).1, ?_⟩
  apply pairwise_of_forall_mem_list
  intro first firstMember later laterMember
  obtain ⟨presentFirst, endsFirst⟩ := mem_linksAt.mp firstMember
  obtain ⟨presentLater, _⟩ := mem_linksAt.mp laterMember
  have inLinks := mem_getLinksByNodeName.mpr ⟨mem_of_getElem? presentFirst, endsFirst⟩
  exact (free.2 first.2 inLinks later.2 (mem_of_getElem? presentLater)).symm

theorem CollisionFree.exact (i : Nat) (node : Node)
    (exact : w.ExactLinks)
    (free : CollisionFree w nodeName newName) :
    (renameNode nodeName newName i node w).ExactLinks := by
  have table := renameNode_table nodeName newName i node w
  have kept := Rekey.rekeyAll_exact (t := w.linkTable) (f := renameLinkEnd nodeName newName) exact
    (linksAt_present w nodeName) (linksAt_distinct w nodeName) ?_ ?_
  · rw [← table] at kept
    exact kept
  · intro target member link inLinks
    obtain ⟨present, ends⟩ := mem_linksAt.mp member
    exact free.2 target.2 (mem_getLinksByNodeName.mpr ⟨mem_of_getElem? present, ends⟩) link inLinks
  · have apart := free.1
    rw [← linksAt_map_snd, pairwise_map] at apart
    exact apart

end Rename

theorem renameSite_links (siteName newName : String) (i : Nat) (w : TopologyWrapper) :
    (renameSite siteName newName i w).topology.links = w.topology.links := by
  unfold renameSite
  cases w.site2AssocNodes siteName <;> rfl

theorem renameSite_types (siteName newName : String) (i : Nat) (w : TopologyWrapper) :
    (renameSite siteName newName i w).nodeTypeOf = w.nodeTypeOf := by
  unfold renameSite
  cases w.site2AssocNodes siteName with
  | none => exact nodeTypeOf_congr rfl rfl
  | some names =>
    refine nodeTypeOf_congr rfl ?_
    apply ext_getElem?
    intro j
    show ((moveNodesToSite names newName w).topology.nodes.map Node.nodeType)[j]? = _
    simp only [moveNodesToSite, withNodes, getElem?_map, getElem?_mapIdx]
    cases w.topology.nodes[j]? with
    | none => rfl
    | some =>
      split <;> rfl

/-! ### A renamed link -/

/-- Renaming one end of a link keeps the two ends with their MACs in lexicographic order and
rebuilds the name. -/
structure RenamedEnd (nodeName newName : String) (link renamed : Link) : Prop where
  ends : (renamed.aNodeName = newName ∧ renamed.zNodeName = nbrNodeName link nodeName ∧
      renamed.aNodeMac = radioMacAt link nodeName ∧
      renamed.zNodeMac = radioMacAt link (nbrNodeName link nodeName)) ∨
    (renamed.aNodeName = nbrNodeName link nodeName ∧ renamed.zNodeName = newName ∧
      renamed.aNodeMac = radioMacAt link (nbrNodeName link nodeName) ∧
      renamed.zNodeMac = radioMacAt link nodeName)
  ordered : renamed.aNodeName < renamed.zNodeName
  named : renamed.name = buildLinkName renamed.aNodeName renamed.zNodeName
  attributes : renamed.linkType = link.linkType ∧ renamed.isAlive = link.isAlive ∧
    renamed.linkupAttempts = link.linkupAttempts ∧ renamed.isBackupCnLink = link.isBackupCnLink

theorem nbrNodeName_of_a (isA : link.aNodeName = nodeName) :
    nbrNodeName link nodeName = link.zNodeName := by
  simp [nbrNodeName, isA]

theorem nbrNodeName_of_z (notA : link.aNodeName ≠ nodeName) :
    nbrNodeName link nodeName = link.aNodeName := by
  simp [nbrNodeName, notA]

theorem renameLinkEnd_renamedEnd
    (ordered : link.aNodeName < link.zNodeName) (ends : incident nodeName link)
    (apart : newName ≠ nbrNodeName link nodeName) :
    RenamedEnd nodeName newName link (renameLinkEnd nodeName newName link) := by
  have distinct : link.aNodeName ≠ link.zNodeName := ne_of_lt ordered
  by_cases isA : link.aNodeName = nodeName
  · rw [nbrNodeName_of_a isA] at apart
    have notZ : link.zNodeName ≠ nodeName := fun isZ => distinct (isA.trans isZ.symm)
    by_cases swap : link.zNodeName < newName
    · have shape : renameLinkEnd nodeName newName link = { link with
            aNodeName := link.zNodeName, zNodeName := newName, aNodeMac := link.zNodeMac,
            zNodeMac := link.aNodeMac, name := buildLinkName link.zNodeName newName } := by
        simp [renameLinkEnd, updateLink, isA, swap]
      rw [shape]
      exact ⟨.inr (by simp [nbrNodeName_of_a isA, radioMacAt, isA, Ne.symm notZ]), swap, rfl,
        rfl, rfl, rfl, rfl⟩
    · have shape : renameLinkEnd nodeName newName link =
          { link with aNodeName := newName, name := buildLinkName newName link.zNodeName } := by
        simp [renameLinkEnd, updateLink, isA, swap]
      rw [shape]
      exact ⟨.inl (by simp [nbrNodeName_of_a isA, radioMacAt, isA, Ne.symm notZ]),
        lt_of_le_of_ne (not_lt.mp swap) apart, rfl, rfl, rfl, rfl, rfl⟩
  · have isZ : link.zNodeName = nodeName := ends.resolve_left isA
    rw [nbrNodeName_of_z isA] at apart
    by_cases swap : newName < link.aNodeName
    · have shape : renameLinkEnd nodeName newName link = { link with
            aNodeName := newName, zNodeName := link.aNodeName, aNodeMac := link.zNodeMac,
            zNodeMac := link.aNodeMac, name := buildLinkName newName link.aNodeName } := by
        simp [renameLinkEnd, updateLink, isA, swap]
      rw [shape]
      exact ⟨.inl (by simp [nbrNodeName_of_z isA, radioMacAt, isA, isZ]), swap, rfl, rfl, rfl,
        rfl, rfl⟩
    · have shape : renameLinkEnd nodeName newName link =
          { link with zNodeName := newName, name := buildLinkName link.aNodeName newName } := by
        simp [renameLinkEnd, updateLink, isA, swap]
      rw [shape]
      exact ⟨.inr (by simp [nbrNodeName_of_z isA, radioMacAt, isA, isZ]),
        lt_of_le_of_ne (not_lt.mp swap) apart.symm, rfl, rfl, rfl, rfl, rfl⟩

theorem LinkWellFormed.at_end (wellFormed : LinkWellFormed w link) (ends : incident nodeName link) :
    nbrNodeName link nodeName ≠ nodeName ∧ w.nodeTypeOf nodeName ≠ none ∧
      w.nodeTypeOf (nbrNodeName link nodeName) ≠ none ∧
      ¬ (w.nodeTypeOf nodeName = some .CN ∧
        w.nodeTypeOf (nbrNodeName link nodeName) = some .CN) := by
  obtain ⟨aNode, zNode, notBothCn, _, ordered, _⟩ := wellFormed
  rw [getNode_ne_none_iff] at aNode zNode
  have distinct := ne_of_lt ordered
  by_cases isA : link.aNodeName = nodeName
  · rw [nbrNodeName_of_a isA, ← isA]
    exact ⟨distinct.symm, aNode, zNode, notBothCn⟩
  · have isZ : link.zNodeName = nodeName := ends.resolve_left isA
    rw [nbrNodeName_of_z isA, ← isZ]
    exact ⟨distinct, zNode, aNode, fun both => notBothCn both.symm⟩

theorem LinkWellFormed.radioMacAt_eq_empty (wellFormed : LinkWellFormed w link)
    (isWired : link.linkType ≠ .WIRELESS) (nodeName : String) : radioMacAt link nodeName = "" := by
  obtain ⟨aEmpty, zEmpty⟩ := wellFormed.wired isWired
  unfold radioMacAt
  split
  · exact aEmpty
  · split
    · exact zEmpty
    · rfl

theorem LinkWellFormed.rename {link renamed : Link}
    (wellFormed : LinkWellFormed w link) (ends : incident nodeName link)
    (isRenamed : RenamedEnd nodeName newName link renamed)
    (newType : w'.nodeTypeOf newName = w.nodeTypeOf nodeName)
    (nbrType : w'.nodeTypeOf (nbrNodeName link nodeName) =
      w.nodeTypeOf (nbrNodeName link nodeName)) : LinkWellFormed w' renamed := by
  obtain ⟨_, known, nbrKnown, notBothCn⟩ := wellFormed.at_end ends
  rw [← newType] at known notBothCn
  rw [← nbrType] at nbrKnown notBothCn
  have wired : renamed.linkType ≠ .WIRELESS → renamed.aNodeMac = "" ∧ renamed.zNodeMac = "" := by
    intro isWired
    rw [isRenamed.attributes.1] at isWired
    have empty := wellFormed.radioMacAt_eq_empty isWired
    rcases isRenamed.ends with ⟨_, _, aMac, zMac⟩ | ⟨_, _, aMac, zMac⟩
    all_goals
      rw [aMac, zMac]
      exact ⟨empty _, empty _⟩
  rw [← getNode_ne_none_iff] at known nbrKnown
  rcases isRenamed.ends with ⟨isA, isZ, _⟩ | ⟨isA, isZ, _⟩
  · rw [← isA] at known notBothCn
    rw [← isZ] at nbrKnown notBothCn
    exact ⟨known, nbrKnown, notBothCn, wired, isRenamed.ordered, isRenamed.named⟩
  · rw [← isA] at nbrKnown notBothCn
    rw [← isZ] at known notBothCn
    exact ⟨nbrKnown, known, fun both => notBothCn both.symm, wired, isRenamed.ordered,
      isRenamed.named⟩

/-! ### Deleting links -/

variable {force : Bool} {snapshot : List Link}

theorem delLinks_ok {v v' : TopologyWrapper}
    (named : ∀ link ∈ snapshot, link.name = buildLinkName link.aNodeName link.zNodeName)
    (exact : v.ExactLinks)
    (run : (delLinks snapshot force).run v =
      .ok () v') :
    v'.ExactLinks ∧ (∀ link, link ∈ v'.topology.links ↔
        link ∈ v.topology.links ∧ ∀ deleted ∈ snapshot, link.name ≠ deleted.name) ∧
      (snapshot.map Link.name).Nodup ∧
      ∀ link ∈ snapshot, ∃ deleted ∈ v.topology.links, deleted.name = link.name := by
  induction snapshot generalizing v with
  | nil =>
    cases run
    simp [exact]
  | cons first _ ih =>
    rw [delLinks, forM_cons, bind_eq_ok] at run
    obtain ⟨_, t, deleting, run⟩ := run
    obtain ⟨i, stored, rfl⟩ := delLink_ok deleting
    rw [← named first (by simp)] at stored run
    have erased := exact.eraseIdx stored
    obtain ⟨exact', links, once, found⟩ := ih (fun link member => named link (by simp [member]))
      erased run
    have remaining : ∀ link, link ∈ (v.eraseLink first.name i).topology.links ↔
        link ∈ v.topology.links ∧ link.name ≠ first.name := fun _ => exact.mem_eraseIdx_iff stored
    refine ⟨exact', ?_, ?_, ?_⟩
    · intro link
      rw [links, remaining]
      simp [and_assoc]
    · rw [map_cons, nodup_cons]
      refine ⟨fun repeated => ?_, once⟩
      obtain ⟨link, later, same⟩ := mem_map.mp repeated
      obtain ⟨deleted, there, sameName⟩ := found link later
      exact ((remaining deleted).mp there).2 (sameName.trans same)
    · refine forall_mem_cons.mpr ⟨?_, fun link later => ?_⟩
      · obtain ⟨deleted, present, sameName⟩ := exact.sound _ _ stored
        exact ⟨deleted, mem_of_getElem? present, sameName⟩
      · obtain ⟨deleted, there, same⟩ := found link later
        exact ⟨deleted, ((remaining deleted).mp there).1, same⟩

/-! ### The invariant -/

structure LinkInvariant (w : TopologyWrapper) : Prop where
  index : w.ExactLinks
  wellFormed : ∀ link ∈ w.topology.links, LinkWellFormed w link

def DistinctLinkNames (topology : Topology) : Prop :=
  (topology.links.map fun link => buildLinkName link.aNodeName link.zNodeName).Nodup

instance (topology : Topology) : Decidable (DistinctLinkNames topology) :=
  inferInstanceAs (Decidable (List.Nodup _))

/-- A step that renames a node does not make link names clash. -/
def LinkNamesApart (w : TopologyWrapper) : TopologyOp → Prop
  | .editNode nodeName newNode =>
    newNode.name ≠ nodeName → CollisionFree w nodeName newNode.name
  | _ => True

instance (w : TopologyWrapper) : ∀ op, Decidable (LinkNamesApart w op) := by
  rintro (_ | _) <;> dsimp only [LinkNamesApart] <;> infer_instance

theorem SameShape.types (same : SameShape w w') : w'.nodeTypeOf = w.nodeTypeOf :=
  nodeTypeOf_congr same.name2Node (map_comp_of_map (f := Node.shape) Node.nodeType same.nodes)

namespace LinkInvariant

section

variable (invariant : LinkInvariant w)
include invariant

theorem name_unique {first second : Link}
    (inFirst : first ∈ w.topology.links) (inSecond : second ∈ w.topology.links)
    (same : first.name = second.name) : first = second :=
  inj_on_of_nodup_map invariant.index.nodup inFirst inSecond same

theorem congr (links : w'.topology.links = w.topology.links)
    (name2Link : w'.name2Link = w.name2Link)
    (types : ∀ link ∈ w.topology.links, ∀ name, incident name link →
      w'.nodeTypeOf name = w.nodeTypeOf name) : LinkInvariant w' := by
  refine ⟨?_, ?_⟩
  · rw [ExactLinks, links, name2Link]
    exact invariant.index
  · intro link member
    rw [links] at member
    exact (invariant.wellFormed link member).congr (types link member)

theorem congr_types (links : w'.topology.links = w.topology.links)
    (name2Link : w'.name2Link = w.name2Link) (types : w'.nodeTypeOf = w.nodeTypeOf) :
    LinkInvariant w' :=
  invariant.congr links name2Link fun _ _ _ _ => by rw [types]

theorem modifyMacs (i : Nat) (f : Node → Node)
    (mac2NodeName : String → Option String) (keeps : ∀ node, (f node).nodeType = node.nodeType) :
    LinkInvariant { w.modifyNode i f with mac2NodeName } :=
  invariant.congr_types rfl rfl
    (nodeTypeOf_congr rfl (map_modify_of_keeps Node.nodeType _ i f fun node _ => keeps node))

theorem shape (same : SameShape w w') : LinkInvariant w' := by
  have names : w'.topology.links.map Link.name = w.topology.links.map Link.name :=
    map_comp_of_map (f := Link.shape) Link.name same.links
  have types := same.types
  refine ⟨?_, ?_⟩
  · rw [ExactLinks, same.name2Link]
    exact invariant.index.congr_keys names
  · intro link member
    obtain ⟨old, oldMember, sameShape⟩ := exists_of_map same.links member
    obtain ⟨aNode, zNode, notBothCn, wired, ordered, named⟩ := invariant.wellFormed old oldMember
    have reshaped : LinkWellFormed w link := by
      simp only [Link.shape, Link.mk.injEq] at sameShape
      obtain ⟨sameName, sameA, sameZ, sameType, _, _, sameAMac, sameZMac, _⟩ := sameShape
      rw [sameA] at aNode notBothCn ordered named
      rw [sameZ] at zNode notBothCn ordered named
      rw [sameType, sameAMac, sameZMac] at wired
      rw [sameName] at named
      exact ⟨aNode, zNode, notBothCn, wired, ordered, named⟩
    exact reshaped.congr fun _ _ => by rw [types]

theorem pushLink (checked : LinkChecked w link) : LinkInvariant (w.pushLink link) := by
  refine ⟨invariant.index.push checked.fresh, ?_⟩
  have frame := LinkFrame.pushLink w link
  exact forall_mem_append.mpr ⟨fun other old => (invariant.wellFormed other old).frame frame,
    forall_mem_singleton.mpr (checked.wellFormed.frame frame)⟩

theorem eraseLink {linkName : String}
    (stored : w.name2Link linkName = some i) : LinkInvariant (w.eraseLink linkName i) := by
  refine ⟨invariant.index.eraseIdx stored, ?_⟩
  intro link member
  exact (invariant.wellFormed link (mem_of_mem_eraseIdx member)).frame
    (LinkFrame.eraseLink w linkName i)

theorem siteLinked (linked : SiteLinked w w') : LinkInvariant w' := by
  induction linked with
  | refl => exact invariant
  | touch _ _ ih =>
    exact ih.congr_types rfl rfl (nodeTypeOf_congr rfl rfl)
  | add _ checked _ ih => exact ih.pushLink checked

theorem not_incident (unused : w.name2Node nodeName = none) (member : link ∈ w.topology.links) :
    ¬ incident nodeName link := by
  have missing : w.getNode nodeName = none := by
    unfold getNode find
    rw [unused]
    rfl
  intro ends
  rcases ends with isA | isZ
  · exact (invariant.wellFormed link member).aNode (by rw [isA]; exact missing)
  · exact (invariant.wellFormed link member).zNode (by rw [isZ]; exact missing)

variable {node : Node}

theorem insertNode (sites : SiteInvariant w)
    (checked : NodeChecked w node) : LinkInvariant (w.insertNode node) := by
  refine invariant.congr rfl rfl ?_
  intro _ member _ ends
  apply nodeTypeOf_insertNode sites checked
  rintro rfl
  exact invariant.not_incident checked.fresh member ends

theorem delLinks_kept {v : TopologyWrapper}
    (links : v.topology.links = w.topology.links) (name2Link : v.name2Link = w.name2Link)
    (inside : snapshot ⊆ w.topology.links)
    (run : (delLinks snapshot force).run v =
      .ok () w') :
    w'.ExactLinks ∧
      ∀ link, link ∈ w'.topology.links ↔ link ∈ w.topology.links ∧ link ∉ snapshot := by
  have named : ∀ link ∈ snapshot, link.name = buildLinkName link.aNodeName link.zNodeName :=
    fun link deleted => (invariant.wellFormed link (inside deleted)).named
  have exact := invariant.index
  rw [ExactLinks, ← links, ← name2Link] at exact
  obtain ⟨exact', remaining, _⟩ := delLinks_ok named exact run
  refine ⟨exact', ?_⟩
  intro link
  rw [remaining, links]
  refine and_congr_right ?_
  intro member
  constructor
  · intro kept deleted
    exact kept link deleted rfl
  · intro kept _ deleted same
    rw [invariant.name_unique member (inside deleted) same] at kept
    exact kept deleted

theorem delNode_links (unlinked : (delLinks (w.getLinksByNodeName node.name) true).run (w.removeNode i node) = .ok () w') :
    w'.ExactLinks ∧ ∀ link, link ∈ w'.topology.links ↔
        link ∈ w.topology.links ∧ ¬ incident node.name link := by
  obtain ⟨exact, links⟩ := invariant.delLinks_kept (removeNode_links ..) (removeNode_name2Link ..)
    (fun _ ofNode => (mem_getLinksByNodeName.mp ofNode).1) unlinked
  refine ⟨exact, ?_⟩
  intro link
  rw [links, mem_getLinksByNodeName]
  refine and_congr_right ?_
  intro member
  simp [member]

theorem delNode (sites : SiteInvariant w)
    (stored : w.name2Node node.name = some i) (present : w.topology.nodes[i]? = some node)
    (unlinked : (delLinks (w.getLinksByNodeName node.name) true).run (w.removeNode i node) = .ok () w') :
    LinkInvariant w' := by
  obtain ⟨exact, links⟩ := invariant.delNode_links unlinked
  have frame := delLinks_frame unlinked
  refine ⟨exact, ?_⟩
  intro link member
  obtain ⟨inLinks, apart⟩ := (links link).mp member
  have removed := (invariant.wellFormed link inLinks).congr fun _ ends =>
    nodeTypeOf_removeNode sites stored present fun same => apart (same ▸ ends)
  exact removed.frame frame

theorem retype (sites : SiteInvariant w) {newNode : Node}
    (stored : w.name2Node nodeName = some i) (noLinks : w.getLinksByNodeName nodeName = []) :
    LinkInvariant (w.modifyNode i (editProps newNode)) := by
  refine invariant.congr rfl rfl ?_
  intro link member _ ends
  apply nodeTypeOf_modifyNode sites stored
  rintro rfl
  exact not_incident_of_no_links noLinks link member ends

/-- `editNode` writes a new type only if the node has no links. -/
theorem edited (sites : SiteInvariant w) {newNode : Node}
    (stored : w.name2Node nodeName = some i) (present : w.topology.nodes[i]? = some node)
    (typeFixed : hasNewType node newNode → w.getLinksByNodeName nodeName = []) :
    LinkInvariant (w.modifyNode i (editProps newNode)) := by
  by_cases newType : hasNewType node newNode
  · exact invariant.retype sites stored (typeFixed newType)
  · refine invariant.shape (SameShape.modifyNode w i _ ?_)
    intro _ presentOther
    cases present.symm.trans presentOther
    exact editProps_shape newType

theorem replaceWlanMac (nodeName : String) (i : Nat)
    (oldMac newMac : String) : LinkInvariant (w.replaceWlanMac nodeName i oldMac newMac) := by
  have types : (w.replaceWlanMac nodeName i oldMac newMac).nodeTypeOf = w.nodeTypeOf :=
    nodeTypeOf_congr rfl (map_modify_of_keeps Node.nodeType _ i _ fun _ _ => rfl)
  refine ⟨?_, ?_⟩
  · apply invariant.index.congr_keys
    show (w.topology.links.map (replaceLinkMac nodeName oldMac newMac)).map Link.name = _
    rw [map_map]
    exact map_congr_left fun link _ => replaceLinkMac_name nodeName oldMac newMac link
  · intro _ member
    obtain ⟨old, oldMember, rfl⟩ := mem_map.mp member
    obtain ⟨aNode, zNode, notBothCn, wired, ordered, named⟩ := invariant.wellFormed old oldMember
    have replaced : LinkWellFormed w (replaceLinkMac nodeName oldMac newMac old) := by
      refine ⟨by simpa using aNode, by simpa using zNode, by simpa using notBothCn, ?_,
        by simpa using ordered, by simpa using named⟩
      intro isWired
      rw [replaceLinkMac_linkType] at isWired
      rw [replaceLinkMac, if_neg fun both => isWired both.1]
      exact wired isWired
    exact replaced.congr fun _ _ => by rw [types]

theorem nbr_ne_unused {newName : String}
    (unused : w.name2Node newName = none) (nodeName : String) (member : link ∈ w.topology.links) :
    newName ≠ nbrNodeName link nodeName := by
  have apart := invariant.not_incident unused member
  rw [not_incident_iff] at apart
  unfold nbrNodeName
  split
  · exact fun same => apart.2 same.symm
  · exact fun same => apart.1 same.symm

theorem renameNode (stored : w.name2Node nodeName = some i) (fresh : w.name2Node newName = none)
    (free : CollisionFree w nodeName newName) (given : Node) :
    LinkInvariant (renameNode nodeName newName i given w) := by
  obtain ⟨renamedType, otherTypes⟩ := nodeTypeOf_renameNode stored fresh given
  refine ⟨free.exact i given invariant.index, ?_⟩
  intro _ member
  rw [renameNode_links i given (free.resolves invariant.index)] at member
  obtain ⟨old, oldMember, rfl⟩ := mem_map.mp member
  have wellFormed := invariant.wellFormed old oldMember
  have notNew := invariant.not_incident fresh oldMember
  unfold substLink
  split
  · next ends =>
    have apart := invariant.nbr_ne_unused fresh nodeName oldMember
    have renamed := renameLinkEnd_renamedEnd wellFormed.ordered ends apart
    have nbrApart := (wellFormed.at_end ends).1
    exact wellFormed.rename ends renamed renamedType (otherTypes _ nbrApart apart.symm)
  · next apart =>
    exact wellFormed.congr fun name nameEnds =>
      otherTypes name (fun same => apart (same ▸ nameEnds)) fun same => notNew (same ▸ nameEnds)

theorem deletedMacs_links
    (dropped : (forM macs (deleteNodeWlanMac i (w.getLinksByNodeName nodeName) force)).run w =
      .ok () w') :
    w'.ExactLinks ∧
      ∀ link, link ∈ w'.topology.links ↔ link ∈ w.topology.links ∧
        ∀ macAddr ∈ macs, ¬ (incident nodeName link ∧ carries macAddr link) := by
  obtain ⟨u, deleting, rfl⟩ := deleteMacs_ok dropped
  obtain ⟨exact, links⟩ := invariant.delLinks_kept rfl rfl selectedLinks_subset deleting
  refine ⟨exact, ?_⟩
  intro link
  refine (links link).trans (and_congr_right ?_)
  intro member
  simp [mem_selectedLinks, mem_getLinksByNodeName, member]

theorem deletedMacs
    (dropped : (forM macs (deleteNodeWlanMac i (w.getLinksByNodeName nodeName) force)).run w =
      .ok () w') : LinkInvariant w' := by
  obtain ⟨exact, links⟩ := invariant.deletedMacs_links dropped
  have unlinked : LinkInvariant (w.dropMacs i macs) :=
    invariant.modifyMacs i (dropWlanMacs macs) _ fun _ => rfl
  refine ⟨exact, ?_⟩
  intro link member
  exact (unlinked.wellFormed link ((links link).mp member).1).frame
    (deleteNodeWlanMacs_frame dropped)

theorem renameSite (siteName newName : String) (i : Nat) :
    LinkInvariant (renameSite siteName newName i w) := by
  refine invariant.congr_types (renameSite_links _ _ _ _) ?_ (renameSite_types _ _ _ _)
  unfold Terragraph.renameSite
  cases w.site2AssocNodes siteName <;> rfl

end

theorem populated_distinct {given : Topology} (links : LinksPopulated given.links w)
    (distinct : DistinctLinkNames given) : LinkInvariant w := by
  have nodup : (w.topology.links.map Link.name).Nodup := by
    rw [links.names]
    exact distinct
  exact ⟨links.indexed.exact nodup links.known, links.wellFormed⟩

variable {mac : MacUtils}

theorem accepted (start : Accepted mac DistinctLinkNames w) : LinkInvariant w := by
  obtain ⟨_, _, _, distinct, built⟩ := start
  obtain ⟨v, populated, linked⟩ := construct_ok built
  exact (populated_distinct (populateMaps_ok populated).1 distinct).siteLinked linked

/-- Every mutator keeps the link index exact and the links well-formed, without a clash of names. -/
theorem step {op : TopologyOp} (invariant : LinkInvariant w) (sites : SiteInvariant w)
    (apart : LinkNamesApart w op) (taken : Step mac w op w') :
    LinkInvariant w' := by
  cases step_effect sites.nodeIndex taken with
  | attributes same => exact invariant.shape same
  | addNode checked linked => exact (invariant.insertNode sites checked).siteLinked linked
  | delNode stored present unlinked => exact invariant.delNode sites stored present unlinked
  | retype stored _ _ noLinks => exact invariant.retype sites stored noLinks
  | @rename _ _ _ node stored present typeFixed renamed _ fresh =>
    exact (invariant.edited sites stored present typeFixed).renameNode stored fresh
      (apart renamed) node
  | addLink checked => exact invariant.pushLink checked
  | delLink stored => exact invariant.eraseLink stored
  | addSite nonempty fresh | delSite stored unused =>
    exact invariant.congr_types rfl rfl (nodeTypeOf_congr rfl rfl)
  | renameSite _ _ same =>
    exact (invariant.shape same).renameSite _ _ _
  | setNodeMacByName =>
    exact invariant.modifyMacs _ (withMacAddr _ _) _ fun _ => rfl
  | changeNodeWlanMac =>
    exact invariant.replaceWlanMac _ _ _ _
  | addNodeWlanMacs =>
    refine invariant.modifyMacs _ _ _ ?_
    intro node
    rfl
  | deleteNodeWlanMacs _ _ _ dropped => exact invariant.deletedMacs dropped

theorem of_runsTo {given : Topology → Prop} {allowed : TopologyWrapper → TopologyOp → Prop}
    (distinct : ∀ topology, given topology → DistinctLinkNames topology)
    (apart : ∀ v op, allowed v op → LinkNamesApart v op) (reached : RunsTo mac given allowed w) :
    LinkInvariant w := by
  induction reached with
  | start initial => exact accepted (initial.mono distinct)
  | step reached permitted taken links =>
    exact links.step (.of_runsTo reached) (apart _ _ permitted) taken

end LinkInvariant

/-! ### Main result -/

theorem ends_unique {a z a' z' : String} (ordered : a < z) (ordered' : a' < z')
    (same : ({a, z} : Finset String) = {a', z'}) : a = a' ∧ z = z' := by
  rw [← Finset.coe_inj, Finset.coe_pair, Finset.coe_pair, Set.pair_eq_pair_iff] at same
  rcases same with same | ⟨rfl, rfl⟩
  · exact same
  · exact absurd ordered' (lt_asymm ordered)

/-- If the given links have pairwise distinct canonical names and no rename makes link names
clash, then in every state of the run the link index is exact, link names are pairwise distinct,
and there is at most one link between two nodes. -/
theorem link_index_exact (mac : MacUtils) (w : TopologyWrapper)
    (reached : RunsTo mac DistinctLinkNames LinkNamesApart w) :
    w.ExactLinks ∧ (w.topology.links.map Link.name).Nodup ∧
      ∀ (i j : Nat) (first second : Link), w.topology.links[i]? = some first →
        w.topology.links[j]? = some second →
        ({first.aNodeName, first.zNodeName} : Finset String) =
          {second.aNodeName, second.zNodeName} → i = j := by
  have invariant := LinkInvariant.of_runsTo (fun _ given => given) (fun _ _ apart => apart) reached
  refine ⟨invariant.index, invariant.index.nodup, ?_⟩
  intro i j first second presentFirst presentSecond sameEnds
  have wellFormedFirst := invariant.wellFormed first (mem_of_getElem? presentFirst)
  have wellFormedSecond := invariant.wellFormed second (mem_of_getElem? presentSecond)
  obtain ⟨sameA, sameZ⟩ := ends_unique wellFormedFirst.ordered wellFormedSecond.ordered sameEnds
  apply invariant.index.position_unique presentFirst presentSecond
  rw [wellFormedFirst.named, wellFormedSecond.named, sameA, sameZ]

def oneSite (nodes : List Node) (links : List Link) : Topology :=
  { sites := [{ name := "S" }], nodes := nodes.map fun node => { node with siteName := "S" }, links }

/-- A wireless link between two radios. -/
def radioLink (aNodeName aNodeMac zNodeName zNodeMac : String) : Link where
  name := buildLinkName aNodeName zNodeName
  aNodeName := aNodeName
  zNodeName := zNodeName
  aNodeMac := aNodeMac
  zNodeMac := zNodeMac
  linkType := .WIRELESS

/-- A wrapper with the indices of its nodes and links. -/
def indexed (topology : Topology) : TopologyWrapper :=
  { TopologyWrapper.ofTopology topology false with
    name2Node := refresh Node.name topology.nodes fun _ => none
    name2Link := refresh Link.name topology.links fun _ => none }

/-- The given links are distinct, and the last step deletes one of them. -/
theorem link_index_exact_after_delLink : ∃ w, build (.ofCanonical [] (by decide)) .sorted
        (oneSite [{ name := "a" }, { name := "b" }, { name := "c" }]
          [{ aNodeName := "a", zNodeName := "b", linkType := .WIRELESS },
            { aNodeName := "b", zNodeName := "c", linkType := .WIRELESS }])
        false [.delLink "a" "b" false] = .ok w ∧
      w.topology.links.map Link.name = ["link-b-c"] ∧
      w.ExactLinks := by
  refine build_exists (fun w => w.topology.links.map Link.name) ["link-b-c"] (by decide) ?_
  intro w built names
  have reached : RunsTo (.ofCanonical [] (by decide)) DistinctLinkNames LinkNamesApart w :=
    build_runsTo (by decide) (by decide) built
  exact ⟨names, (link_index_exact _ w reached).1⟩

/-- The constructor accepts two links between the same nodes, since the index is still empty; and
renaming `a` to `a-b` gives the link to `x` the name of the link to `b-x`. -/
theorem link_index_exact_fails : (∃ w, Reachable (.ofCanonical [] (by decide)) w ∧
      ¬ (w.topology.links.map Link.name).Nodup) ∧
    ∃ w, Reachable (.ofCanonical [] (by decide)) w ∧
      ∃ link ∈ w.topology.links, w.name2Link link.name = none := by
  constructor
  · obtain ⟨w, reached, seen⟩ := reachable_of_build (.ofCanonical [] (by decide)) .sorted
      (oneSite [{ name := "a" }, { name := "b" }]
        [{ aNodeName := "a", zNodeName := "b", linkType := .WIRELESS },
          { aNodeName := "a", zNodeName := "b", linkType := .WIRELESS }])
      false [] (fun w => decide (w.topology.links.map Link.name).Nodup) false (by decide)
    exact ⟨w, reached, of_decide_eq_false seen⟩
  · obtain ⟨w, reached, seen⟩ := reachable_of_build (.ofCanonical [] (by decide)) .sorted
      (oneSite [{ name := "a" }, { name := "x" }, { name := "b-x" }]
        [{ aNodeName := "a", zNodeName := "x", linkType := .WIRELESS },
          { aNodeName := "a", zNodeName := "b-x", linkType := .WIRELESS }])
      false [.editNode "a" { name := "a-b", siteName := "S" }]
      (fun w => decide (∃ link ∈ w.topology.links, w.name2Link link.name = none)) true (by decide)
    exact ⟨w, reached, of_decide_eq_true seen⟩

end Terragraph
