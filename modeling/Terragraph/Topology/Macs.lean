/-
Module: Terragraph.Topology.Macs
Purpose: The MAC index.
Trusted boundary: none
Main exports: OwnsMac, mac_index_exact_fails
-/
import Terragraph.Topology.Sites

namespace Terragraph

open Guarded Function List TopologyWrapper KeyIndex

/-! ### The maps of the mutators, entry by entry -/

variable {node : Node} {macAddr : String}

theorem mem_macs : macAddr ∈ node.macs ↔
      (macAddr = node.macAddr ∧ macAddr ≠ "") ∨ macAddr ∈ node.wlanMacAddrs := by
  unfold Node.macs
  by_cases empty : node.macAddr = ""
  · simp only [empty, if_true, nil_append, iff_or_self]
    intro ⟨isEmpty, nonempty⟩
    exact absurd isEmpty nonempty
  · simp only [empty, if_false, cons_append, mem_cons]
    exact or_congr_left ⟨fun isMac => ⟨isMac, isMac ▸ empty⟩, And.left⟩

/-- An entry after the MAC mutators: some MACs get an owner, others lose theirs. -/
def reindexed (index : String → Option String) (nodeName : String) (added erased : List String)
    (macAddr : String) : Option String :=
  if macAddr ∈ added then some nodeName
  else if macAddr ∈ erased then none
  else index macAddr

variable (index : String → Option String)

variable (macs : List String)

theorem indexMacs_apply (nodeName macAddr : String) :
    indexMacs index macs nodeName macAddr = reindexed index nodeName macs [] macAddr := by
  unfold indexMacs
  induction macs generalizing index with
  | nil => simp [reindexed]
  | cons first _ ih =>
    rw [foldl_cons, ih]
    by_cases here : macAddr = first <;> simp [reindexed, here]

theorem unindexMacs_apply (nodeName macAddr : String) :
    unindexMacs index macs macAddr = reindexed index nodeName [] macs macAddr := by
  unfold unindexMacs
  induction macs generalizing index with
  | nil => simp [reindexed]
  | cons first _ ih =>
    rw [foldl_cons, ih]
    by_cases here : macAddr = first <;> simp [reindexed, here]

theorem replaced_apply (oldMac newMac nodeName macAddr : String) :
    update (update index oldMac none) newMac (some nodeName) macAddr =
      reindexed index nodeName [newMac] [oldMac] macAddr := by
  simp [reindexed, update_apply]

theorem renameMacOwners_apply (newName macAddr : String) :
    macs.foldl (renameMacOwner newName) index macAddr =
      if macAddr ∈ macs ∧ index macAddr ≠ none then some newName else index macAddr := by
  induction macs generalizing index with
  | nil => simp
  | cons first _ ih =>
    rw [foldl_cons, ih]
    unfold renameMacOwner
    split
    · next missing =>
      by_cases here : macAddr = first
      · simp [here, missing]
      · simp [here]
    · next present =>
      by_cases here : macAddr = first
      · simp [here, present]
      · simp [here]

/-! ### Who owns a MAC -/

def OwnsMac (w : TopologyWrapper) (nodeName macAddr : String) : Prop :=
  ∃ node ∈ w.topology.nodes, node.name = nodeName ∧ macAddr ∈ node.macs

def ownership (node : Node) : String × String × List String :=
  (node.name, node.macAddr, node.wlanMacAddrs)

theorem macs_eq_of_ownership {first second : Node} (same : ownership first = ownership second) :
    first.name = second.name ∧ first.macs = second.macs ∧
      first.wlanMacAddrs = second.wlanMacAddrs := by
  simp only [ownership, Prod.mk.injEq] at same
  unfold Node.macs
  rw [same.2.1, same.2.2]
  exact ⟨same.1, rfl, rfl⟩

theorem mem_of_map_ownership {nodes nodes' : List Node}
    (same : nodes'.map ownership = nodes.map ownership) (member : node ∈ nodes) :
    ∃ other ∈ nodes', other.name = node.name ∧ other.macs = node.macs ∧
      other.wlanMacAddrs = node.wlanMacAddrs := by
  obtain ⟨other, otherMember, sameOwner⟩ := exists_of_map same.symm member
  exact ⟨other, otherMember, macs_eq_of_ownership sameOwner⟩

variable {nodeName : String} {w w' : TopologyWrapper}

theorem OwnsMac.congr (owns : OwnsMac w nodeName macAddr)
    (nodes : w'.topology.nodes.map ownership = w.topology.nodes.map ownership) :
    OwnsMac w' nodeName macAddr := by
  obtain ⟨_, member, named, hasMac⟩ := owns
  obtain ⟨other, otherMember, sameName, macs, _⟩ := mem_of_map_ownership nodes member
  exact ⟨other, otherMember, sameName.trans named, by rw [macs]; exact hasMac⟩

variable {i : Nat}

theorem SiteInvariant.ownsMac_iff (sites : SiteInvariant w)
    (present : w.topology.nodes[i]? = some node) :
    OwnsMac w node.name macAddr ↔ macAddr ∈ node.macs := by
  constructor
  · intro ⟨_, otherMember, named, owns⟩
    cases inj_on_of_nodup_map sites.nodeIndex.nodup otherMember (mem_of_getElem? present) named
    exact owns
  · intro owns
    exact ⟨node, mem_of_getElem? present, rfl, owns⟩

variable {f : Node → Node}

theorem SiteInvariant.ownsMac_modify (sites : SiteInvariant w)
    (present : w.topology.nodes[i]? = some node)
    (nodes : w'.topology.nodes = w.topology.nodes.modify i f)
    (keepsName : (f node).name = node.name) :
    OwnsMac w' nodeName macAddr ↔
      if nodeName = node.name then macAddr ∈ (f node).macs else OwnsMac w nodeName macAddr := by
  simp only [OwnsMac, nodes, sites.nodeIndex.mem_modify_iff present]
  split
  · next isOwn =>
    constructor
    · rintro ⟨_, rfl | ⟨_, apart⟩, named, owns⟩
      · exact owns
      · exact absurd (named.trans isOwn) apart
    · intro owns
      exact ⟨f node, .inl rfl, keepsName.trans isOwn.symm, owns⟩
  · next foreign =>
    constructor
    · rintro ⟨other, rfl | ⟨member, _⟩, named, owns⟩
      · exact absurd (named.symm.trans keepsName) foreign
      · exact ⟨other, member, named, owns⟩
    · rintro ⟨other, member, rfl, owns⟩
      exact ⟨other, .inr ⟨member, foreign⟩, rfl, owns⟩

theorem ownsMac_insertNode : OwnsMac (w.insertNode node) nodeName macAddr ↔
      OwnsMac w nodeName macAddr ∨ (node.name = nodeName ∧ macAddr ∈ node.macs) := by
  simp [OwnsMac, insertNode, withNodes]

theorem SiteInvariant.ownsMac_removeNode (sites : SiteInvariant w)
    (stored : w.name2Node node.name = some i) :
    OwnsMac (w.removeNode i node) nodeName macAddr ↔
      OwnsMac w nodeName macAddr ∧ nodeName ≠ node.name := by
  unfold OwnsMac
  simp only [removeNode_nodes, sites.nodeIndex.mem_eraseIdx_iff stored]
  constructor
  · intro ⟨other, ⟨member, apart⟩, named, owns⟩
    exact ⟨⟨other, member, named, owns⟩, by rw [← named]; exact apart⟩
  · intro ⟨⟨other, member, named, owns⟩, apart⟩
    exact ⟨other, ⟨member, by rw [named]; exact apart⟩, named, owns⟩

variable {newName : String}

theorem SiteInvariant.ownsMac_renameNode (sites : SiteInvariant w)
    (stored : w.name2Node nodeName = some i) (present : w.topology.nodes[i]? = some node)
    (given : Node) {ownerName : String} :
    OwnsMac (Terragraph.renameNode nodeName newName i given w) ownerName macAddr ↔
      (ownerName = newName ∧ macAddr ∈ node.macs) ∨
        (ownerName ≠ nodeName ∧ OwnsMac w ownerName macAddr) := by
  have named := sites.nodeIndex.sound.key_eq stored present
  simp only [OwnsMac, renameNode_nodes, sites.nodeIndex.mem_modify_iff present, named]
  constructor
  · rintro ⟨other, rfl | ⟨member, apart⟩, rfl, owns⟩
    · exact .inl ⟨rfl, owns⟩
    · exact .inr ⟨apart, other, member, rfl, owns⟩
  · rintro (⟨rfl, owns⟩ | ⟨apart, other, member, rfl, owns⟩)
    · exact ⟨_, .inl rfl, rfl, owns⟩
    · exact ⟨other, .inr ⟨member, apart⟩, rfl, owns⟩

/-! ### Operations that keep the owners -/

theorem SameShape.ownership (same : SameShape w w') :
    w'.topology.nodes.map ownership = w.topology.nodes.map ownership :=
  map_comp_of_map (f := Node.shape) Terragraph.ownership same.nodes

theorem modifyNode_ownership (w : TopologyWrapper) (i : Nat)
    (keeps : ∀ node, ownership (f node) = ownership node) :
    (w.modifyNode i f).topology.nodes.map ownership = w.topology.nodes.map ownership :=
  map_modify_of_keeps ownership _ _ _ fun node _ => keeps node

theorem SiteInvariant.renameSite_ownership (sites : SiteInvariant w) (siteName newName : String)
    (i : Nat) :
    (Terragraph.renameSite siteName newName i w).topology.nodes.map ownership =
      w.topology.nodes.map ownership := by
  rw [sites.renameSite_nodes, map_map]
  apply map_congr_left
  intro node _
  simp only [comp_apply]
  split <;> rfl

theorem renameSite_mac2NodeName (siteName newName : String) (i : Nat) (w : TopologyWrapper) :
    (renameSite siteName newName i w).mac2NodeName = w.mac2NodeName := by
  unfold Terragraph.renameSite
  cases w.site2AssocNodes siteName <;> rfl

/-! ### The MACs of a node after a MAC mutator -/

variable {newMac : String}

theorem mem_macs_withMacAddr (nonempty : newMac ≠ "") :
    macAddr ∈ (withMacAddr node.macAddr newMac node).macs ↔
      macAddr = newMac ∨ (macAddr ∈ node.wlanMacAddrs ∧ macAddr ≠ node.macAddr) := by
  rw [mem_macs]
  simp only [withMacAddr, mem_filter, decide_not, Bool.not_eq_eq_eq_not, Bool.not_true,
    decide_eq_false_iff_not]
  exact or_congr_left ⟨And.left, fun isNew => ⟨isNew, isNew ▸ nonempty⟩⟩

variable {oldMac : String}

theorem mem_macs_withWlanMac :
    macAddr ∈ (withWlanMac oldMac newMac node).macs ↔ (macAddr = node.macAddr ∧ macAddr ≠ "") ∨
        (macAddr ∈ node.wlanMacAddrs ∧ macAddr ≠ oldMac) ∨ macAddr = newMac := by
  rw [mem_macs]
  simp [withWlanMac]

variable {newMacs : List String}

theorem mem_macs_appended :
    macAddr ∈ Node.macs { node with wlanMacAddrs := node.wlanMacAddrs ++ newMacs } ↔
      macAddr ∈ node.macs ∨ macAddr ∈ newMacs := by
  rw [mem_macs, mem_macs]
  simp [or_assoc]

variable {wlanMacs : List String} {macs}

theorem mem_wlan_of_not_deleted (kept : macAddr ∉ macs) :
    macAddr ∈ macs.foldl List.erase wlanMacs ↔ macAddr ∈ wlanMacs := by
  rw [← List.diff_eq_foldl, ← List.count_pos_iff, List.count_diff,
    List.count_eq_zero_of_not_mem kept, Nat.sub_zero, List.count_pos_iff]

theorem mem_of_mem_erased
    (remains : macAddr ∈ macs.foldl List.erase wlanMacs) : macAddr ∈ wlanMacs := by
  rw [← List.diff_eq_foldl] at remains
  exact (List.diff_sublist wlanMacs macs).subset remains

theorem not_mem_of_all_erased (all : wlanMacs.count macAddr ≤ macs.count macAddr) :
    macAddr ∉ macs.foldl List.erase wlanMacs := by
  rw [← List.diff_eq_foldl, ← List.count_pos_iff, List.count_diff]
  omega

/-! ### Entries of the index are true -/

structure MacSound (w : TopologyWrapper) : Prop where
  owned : ∀ macAddr nodeName, w.mac2NodeName macAddr = some nodeName → OwnsMac w nodeName macAddr
  wlanMacs : ∀ node ∈ w.topology.nodes, "" ∉ node.wlanMacAddrs

variable {given : Topology → Prop} {allowed : TopologyWrapper → TopologyOp → Prop}

variable {mac2NodeName : String → Option String} {added erased : List String}

namespace MacSound

section

variable (sound : MacSound w)
include sound

theorem congr (nodes : w'.topology.nodes.map ownership = w.topology.nodes.map ownership)
    (mac2NodeName : w'.mac2NodeName = w.mac2NodeName) : MacSound w' := by
  refine ⟨?_, ?_⟩
  · intro macAddr nodeName entry
    rw [mac2NodeName] at entry
    exact (sound.owned macAddr nodeName entry).congr nodes
  · intro _ member
    obtain ⟨other, otherMember, _, _, sameWlan⟩ := mem_of_map_ownership nodes.symm member
    rw [← sameWlan]
    exact sound.wlanMacs other otherMember

theorem frame (linkFrame : LinkFrame w w') : MacSound w' :=
  sound.congr (by rw [linkFrame.nodes]) linkFrame.mac2NodeName

theorem siteLinked (linked : SiteLinked w w') : MacSound w' := by
  induction linked with
  | refl => exact sound
  | touch _ _ ih => exact ih.congr rfl rfl
  | add _ _ _ ih => exact ih.frame (LinkFrame.pushLink _ _)

theorem macs_ne_empty (member : node ∈ w.topology.nodes) : "" ∉ node.macs := by
  intro owns
  rcases mem_macs.mp owns with isMac | isWlan
  · exact isMac.2 rfl
  · exact sound.wlanMacs node member isWlan

theorem index_empty : w.mac2NodeName "" = none := by
  cases entry : w.mac2NodeName "" with
  | none => rfl
  | some nodeName =>
    obtain ⟨_, member, _, owns⟩ := sound.owned "" nodeName entry
    exact absurd owns (sound.macs_ne_empty member)

/-- Writing to one node: it must own the MACs that are added and those that are not erased. -/
theorem modifyNode (sites : SiteInvariant w)
    (present : w.topology.nodes[i]? = some node)
    (index : ∀ macAddr, mac2NodeName macAddr =
      reindexed w.mac2NodeName node.name added erased macAddr)
    (keepsName : (f node).name = node.name) (nonempty : "" ∉ (f node).wlanMacAddrs)
    (gets : ∀ macAddr ∈ added, macAddr ∈ (f node).macs)
    (keeps : ∀ macAddr ∈ node.macs, macAddr ∉ erased → macAddr ∈ (f node).macs) :
    MacSound { w.modifyNode i f with mac2NodeName } := by
  refine ⟨?_, ?_⟩
  · intro macAddr nodeName entry
    simp only [index, reindexed] at entry
    rw [sites.ownsMac_modify present rfl keepsName]
    split at entry
    · next isNew =>
      cases entry
      rw [if_pos rfl]
      exact gets macAddr isNew
    · split at entry
      · cases entry
      · next kept =>
        have owns := sound.owned macAddr nodeName entry
        split
        · next isOwn =>
          rw [isOwn, sites.ownsMac_iff present] at owns
          exact keeps macAddr owns kept
        · exact owns
  · refine forall_mem_modify sound.wlanMacs ?_
    intro _ presentOld
    cases present.symm.trans presentOld
    exact nonempty

theorem insertNode (checked : NodeChecked w node) : MacSound (w.insertNode node) := by
  refine ⟨?_, ?_⟩
  · intro macAddr nodeName entry
    rw [ownsMac_insertNode]
    have entry : indexMacs w.mac2NodeName node.macs node.name macAddr = some nodeName := entry
    simp only [indexMacs_apply, reindexed] at entry
    split at entry
    · next owns =>
      cases entry
      exact .inr ⟨rfl, owns⟩
    · exact .inl (sound.owned macAddr nodeName entry)
  · exact forall_mem_append.mpr ⟨sound.wlanMacs, forall_mem_singleton.mpr checked.wlanMacs⟩

theorem removeNode (sites : SiteInvariant w)
    (stored : w.name2Node node.name = some i) (present : w.topology.nodes[i]? = some node) :
    MacSound (w.removeNode i node) := by
  refine ⟨?_, ?_⟩
  · intro macAddr nodeName entry
    rw [sites.ownsMac_removeNode stored]
    rw [removeNode_mac2NodeName, unindexMacs_apply _ _ nodeName] at entry
    simp only [reindexed, not_mem_nil, if_false] at entry
    split at entry
    · cases entry
    · next foreign =>
      have owns := sound.owned macAddr nodeName entry
      refine ⟨owns, ?_⟩
      intro same
      rw [same, sites.ownsMac_iff present] at owns
      exact foreign owns
  · intro other member
    rw [removeNode_nodes] at member
    exact sound.wlanMacs other (mem_of_mem_eraseIdx member)

/-- Renaming redirects the entries of the MACs that the node owns and that have one. -/
theorem renamed_index {node given : Node}
    (sameMac : given.macAddr = node.macAddr) (sameWlan : given.wlanMacAddrs = node.wlanMacAddrs)
    (macAddr : String) :
    (Terragraph.renameNode nodeName newName i given w).mac2NodeName macAddr =
      if macAddr ∈ node.macs ∧ w.mac2NodeName macAddr ≠ none then some newName
      else w.mac2NodeName macAddr := by
  rw [renameNode_mac2NodeName, renameMacOwners_apply, sameMac, sameWlan]
  congr 1
  apply propext
  apply and_congr_left
  intro known
  rw [mem_macs, mem_cons]
  refine or_congr_left ⟨fun isMac => ⟨isMac, ?_⟩, And.left⟩
  intro empty
  rw [empty, sound.index_empty] at known
  exact known rfl

theorem renameNode (sites : SiteInvariant w)
    {node given : Node} (stored : w.name2Node nodeName = some i)
    (present : w.topology.nodes[i]? = some node) (sameMac : given.macAddr = node.macAddr)
    (sameWlan : given.wlanMacAddrs = node.wlanMacAddrs) :
    MacSound (Terragraph.renameNode nodeName newName i given w) := by
  have named := sites.nodeIndex.sound.key_eq stored present
  refine ⟨?_, ?_⟩
  · intro macAddr ownerName entry
    rw [sites.ownsMac_renameNode stored present]
    rw [sound.renamed_index sameMac sameWlan] at entry
    split at entry
    · next redirected =>
      cases entry
      exact .inl ⟨rfl, redirected.1⟩
    · next kept =>
      have owns := sound.owned macAddr ownerName entry
      refine .inr ⟨?_, owns⟩
      intro same
      rw [same, ← named, sites.ownsMac_iff present] at owns
      exact kept ⟨owns, by rw [entry]; simp⟩
  · rw [renameNode_nodes]
    exact forall_mem_modify sound.wlanMacs fun old present =>
      sound.wlanMacs old (mem_of_getElem? present)

section

variable (sites : SiteInvariant w) (present : w.topology.nodes[i]? = some node)
include sites present

theorem replaceMacAddr (nonempty : newMac ≠ "") :
    MacSound (w.replaceMacAddr node.name i node.macAddr newMac) := by
  refine sound.modifyNode sites present (replaced_apply _ _ _ _) rfl ?_ ?_ ?_
  · intro empty
    exact sound.wlanMacs node (mem_of_getElem? present) (mem_of_mem_filter empty)
  · intro _ isNew
    exact (mem_macs_withMacAddr nonempty).mpr (.inl (mem_singleton.mp isNew))
  · intro _ owns kept
    rw [mem_singleton] at kept
    rcases mem_macs.mp owns with isMac | isWlan
    · exact absurd isMac.1 kept
    · exact (mem_macs_withMacAddr nonempty).mpr (.inr ⟨isWlan, kept⟩)

theorem replaceWlanMac (nonempty : newMac ≠ "") :
    MacSound (w.replaceWlanMac node.name i oldMac newMac) := by
  have relinked : MacSound (w.withLinks
      (w.topology.links.map (replaceLinkMac node.name oldMac newMac))) := sound.congr rfl rfl
  refine relinked.modifyNode (sites.frame (LinkFrame.withLinks w _)) present
    (replaced_apply _ _ _ _) rfl ?_ ?_ ?_
  · intro empty
    rcases mem_append.mp empty with old | new
    · exact sound.wlanMacs node (mem_of_getElem? present) (mem_of_mem_filter old)
    · exact nonempty (mem_singleton.mp new).symm
  · intro _ isNew
    exact mem_macs_withWlanMac.mpr (.inr (.inr (mem_singleton.mp isNew)))
  · intro _ owns kept
    rw [mem_singleton] at kept
    rcases mem_macs.mp owns with isMac | isWlan
    · exact mem_macs_withWlanMac.mpr (.inl isMac)
    · exact mem_macs_withWlanMac.mpr (.inr (.inl ⟨isWlan, kept⟩))

theorem appendMacs (nonempty : ∀ m ∈ newMacs, m ≠ "") :
    MacSound (w.appendMacs node.name i newMacs) := by
  refine sound.modifyNode sites present (indexMacs_apply _ _ _) rfl ?_ ?_ ?_
  · intro empty
    rcases mem_append.mp empty with old | new
    · exact sound.wlanMacs node (mem_of_getElem? present) old
    · exact nonempty "" new rfl
  · intro _ isNew
    exact mem_macs_appended.mpr (.inr isNew)
  · intro _ owns _
    exact mem_macs_appended.mpr (.inl owns)

theorem dropMacs {macs : List String} : MacSound (w.dropMacs i macs) := by
  refine sound.modifyNode sites present (unindexMacs_apply _ _ _) rfl ?_ (by simp) ?_
  · intro empty
    exact sound.wlanMacs node (mem_of_getElem? present) (mem_of_mem_erased empty)
  · intro _ owns kept
    rw [mem_macs] at owns ⊢
    exact owns.imp_right (mem_wlan_of_not_deleted kept).mpr

end

theorem renameSite (sites : SiteInvariant w) (siteName newName : String)
    (i : Nat) : MacSound (renameSite siteName newName i w) :=
  sound.congr (sites.renameSite_ownership siteName newName i) (renameSite_mac2NodeName _ _ _ _)

end

variable {mac : MacUtils}

theorem populateMaps (run : (Terragraph.populateMaps mac true).run w = .ok () w') :
    MacSound w' := by
  refine (populateMaps_ok run).2 MacSound ?_ (fun _ _ holds => holds.insertNode)
    (fun _ _ holds => holds.frame)
  intro u populatedSites
  refine ⟨?_, ?_⟩
  · intro _ _ entry
    rw [populatedSites.mac2NodeName] at entry
    cases entry
  · simp [populatedSites.noNodes]

theorem accepted (start : Accepted mac given w) : MacSound w := by
  obtain ⟨_, _, _, _, built⟩ := start
  obtain ⟨v, populated, linked⟩ := construct_ok built
  exact (populateMaps populated).siteLinked linked

theorem step {op : TopologyOp} (sound : MacSound w) (sites : SiteInvariant w)
    (taken : Step mac w op w') : MacSound w' := by
  cases step_effect sites.nodeIndex taken with
  | attributes same => exact sound.congr same.ownership same.mac2NodeName
  | addNode checked linked => exact (sound.insertNode checked).siteLinked linked
  | delNode stored present unlinked =>
    exact (sound.removeNode sites stored present).frame (delLinks_frame unlinked)
  | retype =>
    exact sound.congr (modifyNode_ownership w _ fun _ => by simp [ownership]) rfl
  | @rename _ newNode i node stored present =>
    have edited : MacSound (w.modifyNode i (editProps newNode)) :=
      sound.congr (modifyNode_ownership w _ fun _ => by simp [ownership]) rfl
    have sitesEdited := sites.modifyNode i (editProps newNode) fun n => by simp [placement]
    exact edited.renameNode sitesEdited stored (modifyNode_present present) (by simp) (by simp)
  | addLink => exact sound.frame (LinkFrame.pushLink w _)
  | delLink => exact sound.frame (LinkFrame.eraseLink w _ _)
  | addSite nonempty fresh | delSite stored unused => exact sound.congr rfl rfl
  | renameSite _ _ same =>
    exact (sound.congr same.ownership same.mac2NodeName).renameSite (sites.shape same) _ _ _
  | setNodeMacByName stored present nonempty =>
    cases sites.nodeIndex.sound.key_eq stored present
    exact sound.replaceMacAddr sites present nonempty
  | changeNodeWlanMac _ standardizedNew stored present =>
    cases sites.nodeIndex.sound.key_eq stored present
    exact sound.replaceWlanMac sites present (mac.standardizeMac_ne_empty _ _ standardizedNew)
  | addNodeWlanMacs stored free =>
    obtain ⟨_, present, named⟩ := (sites.nodeIndex _ _).mp stored
    cases named
    exact sound.appendMacs sites present fun m new => (free m new).1
  | deleteNodeWlanMacs stored _ _ dropped =>
    obtain ⟨_, present, _⟩ := (sites.nodeIndex _ _).mp stored
    exact (sound.dropMacs sites present).frame (deleteNodeWlanMacs_frame dropped)

theorem of_runsTo (reached : RunsTo mac given allowed w) :
    MacSound w := by
  induction reached with
  | start initial => exact accepted initial
  | step reached _ taken sound => exact sound.step (.of_runsTo reached) taken

end MacSound

/-! ### All MACs are indexed -/

def MacComplete (w : TopologyWrapper) : Prop :=
  ∀ nodeName macAddr, OwnsMac w nodeName macAddr → w.mac2NodeName macAddr = some nodeName

/-- A changed or deleted WLAN MAC is not the node's `mac_addr`, and a deleted one is listed as often
as the node has it. -/
def MacsStayIndexed (mac : MacUtils) (w : TopologyWrapper) : TopologyOp → Prop
  | .changeNodeWlanMac nodeName oldMac _ _ =>
    ∀ node, w.getNode nodeName = some node → ∀ std, mac.standardizeMac oldMac = .ok std →
      std ≠ node.macAddr
  | .deleteNodeWlanMacs nodeName wlanMacAddrs _ =>
    ∀ node, w.getNode nodeName = some node → ∀ macs,
      wlanMacAddrs.mapM mac.standardizeMac = .ok macs →
      ∀ macAddr ∈ macs, macAddr ≠ node.macAddr ∧
        node.wlanMacAddrs.count macAddr ≤ macs.count macAddr
  | _ => True

instance (mac : MacUtils) (w : TopologyWrapper) : ∀ op, Decidable (MacsStayIndexed mac w op) := by
  rintro (_ | _) <;> dsimp only [MacsStayIndexed] <;> infer_instance

namespace MacComplete

section

variable (complete : MacComplete w)
include complete

theorem congr (nodes : w'.topology.nodes.map ownership = w.topology.nodes.map ownership)
    (mac2NodeName : w'.mac2NodeName = w.mac2NodeName) : MacComplete w' := by
  intro nodeName macAddr owns
  rw [mac2NodeName]
  exact complete nodeName macAddr (owns.congr nodes.symm)

theorem frame (linkFrame : LinkFrame w w') : MacComplete w' :=
  complete.congr (by rw [linkFrame.nodes]) linkFrame.mac2NodeName

theorem siteLinked (linked : SiteLinked w w') : MacComplete w' := by
  induction linked with
  | refl => exact complete
  | touch _ _ ih => exact ih.congr rfl rfl
  | add _ _ _ ih => exact ih.frame (LinkFrame.pushLink _ _)

theorem index_of_node (present : w.topology.nodes[i]? = some node)
    (owns : macAddr ∈ node.macs) :
    w.mac2NodeName macAddr = some node.name :=
  complete node.name macAddr ⟨node, mem_of_getElem? present, rfl, owns⟩

/-- Writing to one node: the MACs added or erased belong to no other node, and the node has no more
than those that are added and kept. -/
theorem modifyNode (sites : SiteInvariant w)
    (present : w.topology.nodes[i]? = some node)
    (index : ∀ macAddr, mac2NodeName macAddr =
      reindexed w.mac2NodeName node.name added erased macAddr)
    (keepsName : (f node).name = node.name)
    (own : ∀ macAddr nodeName, macAddr ∈ added ∨ macAddr ∈ erased →
      w.mac2NodeName macAddr = some nodeName → nodeName = node.name)
    (has : ∀ macAddr ∈ (f node).macs, macAddr ∉ added → macAddr ∈ node.macs ∧ macAddr ∉ erased) :
    MacComplete { w.modifyNode i f with mac2NodeName } := by
  intro nodeName macAddr owns
  rw [sites.ownsMac_modify present rfl keepsName] at owns
  simp only [index, reindexed]
  split at owns
  · next isOwn =>
    rw [isOwn]
    split
    · rfl
    · next notNew =>
      obtain ⟨owned, kept⟩ := has macAddr owns notNew
      rw [if_neg kept]
      exact complete.index_of_node present owned
  · next foreign =>
    have entry := complete nodeName macAddr owns
    rw [if_neg fun isNew => foreign (own macAddr nodeName (.inl isNew) entry),
      if_neg fun isOld => foreign (own macAddr nodeName (.inr isOld) entry)]
    exact entry

theorem insertNode (checked : NodeChecked w node) : MacComplete (w.insertNode node) := by
  intro nodeName macAddr owns
  show indexMacs w.mac2NodeName node.macs node.name macAddr = some nodeName
  simp only [indexMacs_apply, reindexed]
  rcases ownsMac_insertNode.mp owns with old | new
  · have entry := complete nodeName macAddr old
    rw [if_neg ?_]
    · exact entry
    · intro isNew
      rw [checked.unowned macAddr isNew] at entry
      cases entry
  · rw [if_pos new.2, new.1]

theorem removeNode (sites : SiteInvariant w)
    (stored : w.name2Node node.name = some i) (present : w.topology.nodes[i]? = some node) :
    MacComplete (w.removeNode i node) := by
  intro nodeName macAddr owns
  rw [sites.ownsMac_removeNode stored] at owns
  have entry := complete nodeName macAddr owns.1
  rw [removeNode_mac2NodeName, unindexMacs_apply _ _ nodeName]
  simp only [reindexed, not_mem_nil, if_false]
  rw [if_neg ?_]
  · exact entry
  · intro ownsToo
    rw [complete.index_of_node present ownsToo] at entry
    exact owns.2 (Option.some.inj entry).symm

theorem renameNode (sound : MacSound w) (sites : SiteInvariant w)
    {node given : Node} (stored : w.name2Node nodeName = some i)
    (present : w.topology.nodes[i]? = some node) (sameMac : given.macAddr = node.macAddr)
    (sameWlan : given.wlanMacAddrs = node.wlanMacAddrs) :
    MacComplete (Terragraph.renameNode nodeName newName i given w) := by
  intro ownerName macAddr owns
  rw [sound.renamed_index sameMac sameWlan]
  rcases (sites.ownsMac_renameNode stored present given).mp owns with isOwn | foreign
  · have known : w.mac2NodeName macAddr ≠ none := by
      rw [complete.index_of_node present isOwn.2]
      simp
    rw [isOwn.1, if_pos ⟨isOwn.2, known⟩]
  · have entry := complete ownerName macAddr foreign.2
    rw [if_neg ?_]
    · exact entry
    · intro ownsToo
      rw [complete.index_of_node present ownsToo.1,
        sites.nodeIndex.sound.key_eq stored present] at entry
      exact foreign.1 (Option.some.inj entry).symm

section

variable (sites : SiteInvariant w) (present : w.topology.nodes[i]? = some node)
include sites present

theorem replaceMacAddr (sound : MacSound w) (nonempty : newMac ≠ "")
    (free : w.mac2NodeName newMac = none ∨ w.mac2NodeName newMac = some node.name) :
    MacComplete (w.replaceMacAddr node.name i node.macAddr newMac) := by
  refine complete.modifyNode sites present (replaced_apply _ _ _ _) rfl ?_ ?_
  · intro _ _ place entry
    rcases place with isNew | isOld
    · rw [mem_singleton.mp isNew] at entry
      rcases free with unowned | owned
      · cases unowned.symm.trans entry
      · exact (Option.some.inj (owned.symm.trans entry)).symm
    · rw [mem_singleton.mp isOld] at entry
      have given : node.macAddr ≠ "" := by
        intro empty
        rw [empty, sound.index_empty] at entry
        cases entry
      rw [complete.index_of_node present (mem_macs.mpr (.inl ⟨rfl, given⟩))] at entry
      exact (Option.some.inj entry).symm
  · intro _ owns notNew
    rw [mem_singleton] at notNew ⊢
    have isWlan := ((mem_macs_withMacAddr nonempty).mp owns).resolve_left notNew
    exact ⟨mem_macs.mpr (.inr isWlan.1), isWlan.2⟩

theorem replaceWlanMac (owned : oldMac ∈ node.wlanMacAddrs)
    (free : w.mac2NodeName newMac = none) (notMac : oldMac ≠ node.macAddr) :
    MacComplete (w.replaceWlanMac node.name i oldMac newMac) := by
  have relinked : MacComplete (w.withLinks
      (w.topology.links.map (replaceLinkMac node.name oldMac newMac))) := complete.congr rfl rfl
  refine relinked.modifyNode (sites.frame (LinkFrame.withLinks w _)) present
    (replaced_apply _ _ _ _) rfl ?_ ?_
  · intro macAddr nodeName place entry
    change w.mac2NodeName macAddr = some nodeName at entry
    rcases place with isNew | isOld
    · rw [mem_singleton.mp isNew, free] at entry
      cases entry
    · rw [mem_singleton.mp isOld,
        complete.index_of_node present (mem_macs.mpr (.inr owned))] at entry
      exact (Option.some.inj entry).symm
  · intro _ owns notNew
    rw [mem_singleton] at notNew ⊢
    rcases mem_macs_withWlanMac.mp owns with isMac | isWlan | isNew
    · exact ⟨mem_macs.mpr (.inl isMac), isMac.1 ▸ notMac.symm⟩
    · exact ⟨mem_macs.mpr (.inr isWlan.1), isWlan.2⟩
    · exact absurd isNew notNew

theorem appendMacs (free : ∀ m ∈ newMacs, w.mac2NodeName m = none) :
    MacComplete (w.appendMacs node.name i newMacs) := by
  refine complete.modifyNode sites present (indexMacs_apply _ _ _) rfl ?_ ?_
  · intro macAddr _ place entry
    rcases place with isNew | isOld
    · cases (free macAddr isNew).symm.trans entry
    · cases isOld
  · intro _ owns notNew
    exact ⟨(mem_macs_appended.mp owns).resolve_right notNew, not_mem_nil⟩

theorem dropMacs {macs : List String} (owned : ∀ m ∈ macs, w.mac2NodeName m = some node.name)
    (all : ∀ m ∈ macs, m ≠ node.macAddr ∧ node.wlanMacAddrs.count m ≤ macs.count m) :
    MacComplete (w.dropMacs i macs) := by
  refine complete.modifyNode sites present (unindexMacs_apply _ _ _) rfl ?_ ?_
  · intro macAddr _ place entry
    rcases place with isNew | deleted
    · cases isNew
    · exact (Option.some.inj ((owned macAddr deleted).symm.trans entry)).symm
  · intro macAddr owns _
    rcases mem_macs.mp owns with isMac | isWlan
    · exact ⟨mem_macs.mpr (.inl isMac), fun deleted => (all macAddr deleted).1 isMac.1⟩
    · exact ⟨mem_macs.mpr (.inr (mem_of_mem_erased isWlan)),
        fun deleted => not_mem_of_all_erased (all macAddr deleted).2 isWlan⟩

end

end

variable {mac : MacUtils}

theorem accepted (start : Accepted mac given w) : MacComplete w := by
  obtain ⟨_, _, _, _, built⟩ := start
  obtain ⟨v, populated, linked⟩ := construct_ok built
  have complete := (populateMaps_ok populated).2 MacComplete ?_
    (fun _ _ holds => holds.insertNode) (fun _ _ holds => holds.frame)
  · exact complete.siteLinked linked
  · intro u populatedSites _ _ ⟨_, member, _⟩
    rw [populatedSites.noNodes] at member
    cases member

/-- The MACs of nodes stay indexed, if the step takes none out of the index that the node keeps. -/
theorem step {op : TopologyOp} (complete : MacComplete w) (sound : MacSound w)
    (sites : SiteInvariant w) (stay : MacsStayIndexed mac w op) (taken : Step mac w op w') :
    MacComplete w' := by
  cases step_effect sites.nodeIndex taken with
  | attributes same => exact complete.congr same.ownership same.mac2NodeName
  | addNode checked linked => exact (complete.insertNode checked).siteLinked linked
  | delNode stored present unlinked =>
    exact (complete.removeNode sites stored present).frame (delLinks_frame unlinked)
  | retype =>
    exact complete.congr (modifyNode_ownership w _ fun _ => by simp [ownership]) rfl
  | @rename _ newNode i node stored present =>
    have keeps := modifyNode_ownership w (f := editProps newNode) i fun _ => by
      simp [ownership]
    have sitesEdited := sites.modifyNode i (editProps newNode) fun n => by simp [placement]
    exact (complete.congr keeps rfl).renameNode (sound.congr keeps rfl) sitesEdited stored
      (modifyNode_present present) (by simp) (by simp)
  | addLink => exact complete.frame (LinkFrame.pushLink w _)
  | delLink => exact complete.frame (LinkFrame.eraseLink w _ _)
  | addSite nonempty fresh | delSite stored unused => exact complete.congr rfl rfl
  | renameSite _ _ same =>
    have edited := complete.congr same.ownership same.mac2NodeName
    exact edited.congr ((sites.shape same).renameSite_ownership _ _ _)
      (renameSite_mac2NodeName _ _ _ _)
  | setNodeMacByName stored present nonempty _ free =>
    cases sites.nodeIndex.sound.key_eq stored present
    exact complete.replaceMacAddr sites present sound nonempty free
  | changeNodeWlanMac standardizedOld _ stored present _ owned free =>
    cases sites.nodeIndex.sound.key_eq stored present
    have found := sites.getNode_eq stored present
    exact complete.replaceWlanMac sites present owned free (stay _ found _ standardizedOld)
  | addNodeWlanMacs stored free =>
    obtain ⟨_, present, named⟩ := (sites.nodeIndex _ _).mp stored
    cases named
    exact complete.appendMacs sites present fun m new => (free m new).2
  | deleteNodeWlanMacs stored standardized owned dropped =>
    obtain ⟨_, present, named⟩ := (sites.nodeIndex _ _).mp stored
    cases named
    have found := sites.getNode_eq stored present
    refine MacComplete.frame ?_ (deleteNodeWlanMacs_frame dropped)
    exact complete.dropMacs sites present owned (stay _ found _ standardized)

theorem of_runsTo
    (stay : ∀ v op, allowed v op → MacsStayIndexed mac v op) (reached : RunsTo mac given allowed w) :
    MacComplete w := by
  induction reached with
  | start initial => exact accepted initial
  | step reached permitted taken complete =>
    exact complete.step (.of_runsTo reached) (.of_runsTo reached) (stay _ _ permitted) taken

end MacComplete

/-! ### Main result -/

/-- In such runs, the MAC index is the relation between MACs and nodes, and no MAC has two owners.
-/
theorem mac_index_exact (mac : MacUtils) (w : TopologyWrapper)
    (reached : RunsTo mac (fun _ => True) (MacsStayIndexed mac) w) :
    (∀ macAddr nodeName, w.mac2NodeName macAddr = some nodeName ↔
      ∃ node ∈ w.topology.nodes, node.name = nodeName ∧
        ((macAddr = node.macAddr ∧ macAddr ≠ "") ∨ macAddr ∈ node.wlanMacAddrs)) ∧
    ∀ first ∈ w.topology.nodes, ∀ second ∈ w.topology.nodes, ∀ macAddr,
      macAddr ∈ first.macs → macAddr ∈ second.macs → first = second := by
  have sites := SiteInvariant.of_runsTo reached
  have sound := MacSound.of_runsTo reached
  have complete := MacComplete.of_runsTo (fun _ _ stay => stay) reached
  refine ⟨?_, ?_⟩
  · intro macAddr nodeName
    simp only [← mem_macs]
    exact ⟨sound.owned macAddr nodeName, complete nodeName macAddr⟩
  · intro first inFirst second inSecond macAddr ownsFirst ownsSecond
    have entryFirst := complete first.name macAddr ⟨first, inFirst, rfl, ownsFirst⟩
    have entrySecond := complete second.name macAddr ⟨second, inSecond, rfl, ownsSecond⟩
    rw [entryFirst] at entrySecond
    exact inj_on_of_nodup_map sites.nodeIndex.nodup inFirst inSecond (Option.some.inj entrySecond)

def twoMacs : MacUtils :=
  .ofCanonical ["02:00:00:00:00:01", "02:00:00:00:00:02"] (by decide)

/-- A node whose `mac_addr` is also its only WLAN MAC gets a second WLAN MAC. -/
theorem mac_index_exact_after_addNodeWlanMacs : ∃ w, build twoMacs .sorted
        { sites := [{ name := "S" }] } false
        [.addNode { name := "n", siteName := "S", macAddr := "02:00:00:00:00:01",
                    wlanMacAddrs := ["02:00:00:00:00:01"] },
          .addNodeWlanMacs "n" ["02:00:00:00:00:02"]] = .ok w ∧
      w.mac2NodeName "02:00:00:00:00:02" = some "n" ∧
      ∃ node ∈ w.topology.nodes, node.name = "n" ∧
        (("02:00:00:00:00:02" = node.macAddr ∧ "02:00:00:00:00:02" ≠ "") ∨
          "02:00:00:00:00:02" ∈ node.wlanMacAddrs) := by
  refine build_exists (fun w => w.mac2NodeName "02:00:00:00:00:02") (some "n") (by decide) ?_
  intro w built entry
  have reached : RunsTo twoMacs (fun _ => True) (MacsStayIndexed twoMacs) w :=
    build_runsTo trivial (by decide) built
  exact ⟨entry, ((mac_index_exact _ w reached).1 _ _).mp entry⟩

/-- The `mac_addr` of the node is one of its WLAN MACs; changing that erases the index entry. -/
theorem mac_index_exact_fails : ∃ w, Reachable twoMacs w ∧
      (∃ node ∈ w.topology.nodes, node.name = "n" ∧ node.macAddr = "02:00:00:00:00:01") ∧
      w.mac2NodeName "02:00:00:00:00:01" = none := by
  obtain ⟨w, reached, seen⟩ := reachable_of_build twoMacs .sorted
    { sites := [{ name := "S" }] } false
    [.addNode { name := "n", siteName := "S", macAddr := "02:00:00:00:00:01",
                wlanMacAddrs := ["02:00:00:00:00:01"] },
      .changeNodeWlanMac "n" "02:00:00:00:00:01" "02:00:00:00:00:02" false]
    (fun w => decide ((∃ node ∈ w.topology.nodes,
        node.name = "n" ∧ node.macAddr = "02:00:00:00:00:01") ∧
      w.mac2NodeName "02:00:00:00:00:01" = none)) true (by decide)
  exact ⟨w, reached, of_decide_eq_true seen⟩

end Terragraph
