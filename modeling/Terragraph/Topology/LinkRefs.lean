/-
Module: Terragraph.Topology.LinkRefs
Purpose: References of links, and limits on the links of a radio.
Trusted boundary: none
Main exports: UsesMac, links_referentially_valid_fails, radio_limits_hold_fails
-/
import Terragraph.Topology.Links
import Terragraph.Topology.Macs

namespace Terragraph

variable {w w' : TopologyWrapper} {nodeName newName oldMac newMac : String} {link : Link}
  {node : Node} {force : Bool} {given : Topology → Prop}
  {allowed : TopologyWrapper → TopologyOp → Prop}

open Guarded TopologyWrapper List

section References

open Option

/-! ### The MACs that links name -/

def UsesMac (w : TopologyWrapper) (nodeName macAddr : String) : Prop :=
  ∃ link ∈ w.topology.links, usesMacAt link nodeName macAddr

def LinkMacsValid (w : TopologyWrapper) : Prop :=
  ∀ nodeName macAddr, macAddr ≠ "" → UsesMac w nodeName macAddr → OwnsMac w nodeName macAddr

/-- The step does not replace a `mac_addr` that some link names on the side of the node. -/
def UnlinkedMac (w : TopologyWrapper) : TopologyOp → Prop
  | .setNodeMacByName nodeName _ _ =>
    ∀ node, w.getNode nodeName = some node → node.macAddr ≠ "" →
      ¬ ∃ link ∈ w.topology.links, usesMacAt link nodeName node.macAddr
  | _ => True

instance (w : TopologyWrapper) : ∀ op, Decidable (UnlinkedMac w op) := by
  rintro (_ | _) <;> dsimp only [UnlinkedMac] <;> infer_instance

variable {macAddr : String}

theorem usesMacAt.incident (uses : usesMacAt link nodeName macAddr) : incident nodeName link :=
  uses.imp And.left And.left

theorem usesMacAt.carries (uses : usesMacAt link nodeName macAddr) : carries macAddr link :=
  uses.imp And.right And.right

theorem LinkMacsOwned.ownsMac (owned : LinkMacsOwned w link) (sound : MacSound w)
    (nonempty : macAddr ≠ "") (uses : usesMacAt link nodeName macAddr) :
    OwnsMac w nodeName macAddr := by
  apply sound.owned
  rcases uses with ⟨rfl, rfl⟩ | ⟨rfl, rfl⟩
  · exact owned.aMac nonempty
  · exact owned.zMac nonempty

theorem RenamedEnd.usesMacAt {renamed : Link}
    (isRenamed : RenamedEnd nodeName newName link renamed) (wellFormed : LinkWellFormed w link)
    (ends : incident nodeName link) {ownerName macAddr : String}
    (uses : usesMacAt renamed ownerName macAddr) :
    (ownerName = newName ∧ Terragraph.usesMacAt link nodeName macAddr) ∨
      (ownerName ≠ nodeName ∧ Terragraph.usesMacAt link ownerName macAddr) := by
  have atNode : Terragraph.usesMacAt link nodeName (radioMacAt link nodeName) := by
    by_cases isA : link.aNodeName = nodeName
    · exact .inl ⟨isA, by simp [radioMacAt, isA]⟩
    · exact .inr ⟨ends.resolve_left isA, by simp [radioMacAt, isA, ends.resolve_left isA]⟩
  have atNbr : Terragraph.usesMacAt link (nbrNodeName link nodeName)
      (radioMacAt link (nbrNodeName link nodeName)) := by
    have distinct := ne_of_lt wellFormed.ordered
    by_cases isA : link.aNodeName = nodeName
    · rw [nbrNodeName_of_a isA]
      exact .inr ⟨rfl, by simp [radioMacAt, distinct]⟩
    · rw [nbrNodeName_of_z isA]
      exact .inl ⟨rfl, by simp [radioMacAt]⟩
  have nbrApart := (wellFormed.at_end ends).1
  rcases isRenamed.ends with ⟨isA, isZ, aMac, zMac⟩ | ⟨isA, isZ, aMac, zMac⟩
  · rcases uses with ⟨rfl, rfl⟩ | ⟨rfl, rfl⟩
    · rw [aMac]
      exact .inl ⟨isA, atNode⟩
    · rw [isZ, zMac]
      exact .inr ⟨nbrApart, atNbr⟩
  · rcases uses with ⟨rfl, rfl⟩ | ⟨rfl, rfl⟩
    · rw [isA, aMac]
      exact .inr ⟨nbrApart, atNbr⟩
    · rw [zMac]
      exact .inl ⟨isZ, atNode⟩

/-- `changeNodeWlanMac` replaces the old MAC on the side of the node, and nothing else. -/
theorem usesMacAt_replaceLinkMac (wellFormed : LinkWellFormed w link)
    {oldMac newMac ownerName macAddr : String} (nonempty : oldMac ≠ "")
    (uses : usesMacAt (replaceLinkMac nodeName oldMac newMac link) ownerName macAddr) :
    (ownerName = nodeName ∧ macAddr = newMac ∧ usesMacAt link nodeName oldMac) ∨
      (usesMacAt link ownerName macAddr ∧ ¬ (ownerName = nodeName ∧ macAddr = oldMac)) := by
  have distinct := ne_of_lt wellFormed.ordered
  unfold replaceLinkMac at uses
  split at uses
  · next replaced =>
    unfold replaceMac at uses
    split at uses
    · next isA =>
      rcases uses with ⟨rfl, rfl⟩ | ⟨rfl, rfl⟩
      · exact .inl ⟨isA, rfl, replaced.2⟩
      · refine .inr ⟨.inr ⟨rfl, rfl⟩, ?_⟩
        intro same
        exact distinct (isA.trans same.1.symm)
    · next notA =>
      have isZ : link.zNodeName = nodeName := replaced.2.incident.resolve_left notA
      rcases uses with ⟨rfl, rfl⟩ | ⟨rfl, rfl⟩
      · exact .inr ⟨.inl ⟨rfl, rfl⟩, fun same => notA same.1⟩
      · exact .inl ⟨isZ, rfl, replaced.2⟩
  · next kept =>
    refine .inr ⟨uses, ?_⟩
    rintro ⟨rfl, rfl⟩
    apply kept
    refine ⟨?_, uses⟩
    -- a link that is not wireless names no MAC
    by_contra isWired
    obtain ⟨aEmpty, zEmpty⟩ := wellFormed.wired isWired
    rcases uses.carries with isMac | isMac
    · exact nonempty (isMac.symm.trans aEmpty)
    · exact nonempty (isMac.symm.trans zEmpty)

namespace LinkMacsValid

section

variable (valid : LinkMacsValid w)
include valid

theorem mono (uses : ∀ nodeName macAddr, UsesMac w' nodeName macAddr → UsesMac w nodeName macAddr)
    (owns : ∀ nodeName macAddr, OwnsMac w nodeName macAddr → OwnsMac w' nodeName macAddr) :
    LinkMacsValid w' := by
  intro nodeName macAddr nonempty isUsed
  exact owns nodeName macAddr (valid nodeName macAddr nonempty (uses nodeName macAddr isUsed))

theorem congr (links : w'.topology.links = w.topology.links)
    (nodes : w'.topology.nodes.map ownership = w.topology.nodes.map ownership) :
    LinkMacsValid w' := by
  refine valid.mono ?_ ?_
  · intro nodeName macAddr
    unfold UsesMac
    rw [links]
    exact id
  · intro _ _ owns
    exact owns.congr nodes

theorem shape (same : SameShape w w') : LinkMacsValid w' := by
  refine valid.mono ?_ ?_
  · intro _ _ ⟨_, member, uses⟩
    obtain ⟨old, oldMember, sameShape⟩ := exists_of_map same.links member
    simp only [Link.shape, Link.mk.injEq] at sameShape
    obtain ⟨_, sameA, sameZ, _, _, _, sameAMac, sameZMac, _⟩ := sameShape
    refine ⟨old, oldMember, ?_⟩
    unfold usesMacAt at uses ⊢
    rw [sameA, sameZ, sameAMac, sameZMac]
    exact uses
  · intro _ _ owns
    exact owns.congr same.ownership

theorem pushLink (sound : MacSound w)
    (owned : LinkMacsOwned w link) : LinkMacsValid (w.pushLink link) := by
  intro nodeName macAddr nonempty ⟨other, member, uses⟩
  rcases mem_append.mp member with old | new
  · exact valid nodeName macAddr nonempty ⟨other, old, uses⟩
  · rw [mem_singleton.mp new] at uses
    exact owned.ownsMac sound nonempty uses

theorem siteLinked (sound : MacSound w) (linked : SiteLinked w w') : LinkMacsValid w' := by
  induction linked with
  | refl => exact valid
  | touch _ _ ih => exact ih.congr rfl rfl
  | add soFar checked _ ih =>
    exact ih.pushLink (sound.siteLinked soFar) checked.macsOwned

theorem insertNode (node : Node) : LinkMacsValid (w.insertNode node) :=
  valid.mono (fun _ _ uses => uses) fun _ _ owns => ownsMac_insertNode.mpr (.inl owns)

variable {i : Nat}

theorem delNode (links : LinkInvariant w) (sites : SiteInvariant w)
    (stored : w.name2Node node.name = some i)
    (unlinked : (delLinks (w.getLinksByNodeName node.name) true).run (w.removeNode i node) = .ok () w') :
    LinkMacsValid w' := by
  intro nodeName macAddr nonempty ⟨link, member, uses⟩
  obtain ⟨inLinks, apart⟩ := ((links.delNode_links unlinked).2 link).mp member
  have owns := valid nodeName macAddr nonempty ⟨link, inLinks, uses⟩
  have keeps : OwnsMac (w.removeNode i node) nodeName macAddr := by
    refine (sites.ownsMac_removeNode stored).mpr ⟨owns, ?_⟩
    rintro rfl
    exact apart uses.incident
  exact keeps.congr (by rw [(delLinks_frame unlinked).nodes])

theorem renameNode (links : LinkInvariant w) (sites : SiteInvariant w)
    (stored : w.name2Node nodeName = some i)
    (present : w.topology.nodes[i]? = some node) (fresh : w.name2Node newName = none)
    (free : CollisionFree w nodeName newName) (given : Node) :
    LinkMacsValid (renameNode nodeName newName i given w) := by
  have named := sites.nodeIndex.sound.key_eq stored present
  intro ownerName macAddr nonempty ⟨_, member, uses⟩
  rw [renameNode_links i given (free.resolves links.index)] at member
  obtain ⟨old, oldMember, rfl⟩ := mem_map.mp member
  rw [sites.ownsMac_renameNode stored present]
  unfold substLink at uses
  split at uses
  · next ends =>
    have wellFormed := links.wellFormed old oldMember
    have renamed := renameLinkEnd_renamedEnd wellFormed.ordered ends
      (links.nbr_ne_unused fresh nodeName oldMember)
    rcases renamed.usesMacAt wellFormed ends uses with ⟨isNew, usesOld⟩ | ⟨apart, usesOld⟩
    · have owns := valid nodeName macAddr nonempty ⟨old, oldMember, usesOld⟩
      rw [← named, sites.ownsMac_iff present] at owns
      exact .inl ⟨isNew, owns⟩
    · exact .inr ⟨apart, valid ownerName macAddr nonempty ⟨old, oldMember, usesOld⟩⟩
  · next apart =>
    refine .inr ⟨?_, valid ownerName macAddr nonempty ⟨old, oldMember, uses⟩⟩
    rintro rfl
    exact apart uses.incident

theorem replaceMacAddr (sites : SiteInvariant w) {newMac : String}
    (present : w.topology.nodes[i]? = some node) (nonemptyNew : newMac ≠ "")
    (unlinked : node.macAddr ≠ "" → ¬ UsesMac w node.name node.macAddr) :
    LinkMacsValid (w.replaceMacAddr node.name i node.macAddr newMac) := by
  intro nodeName macAddr nonempty isUsed
  have owns := valid nodeName macAddr nonempty isUsed
  rw [sites.ownsMac_modify present (f := withMacAddr node.macAddr newMac) rfl rfl]
  split
  · next isOwn =>
    rw [isOwn] at owns isUsed
    rw [sites.ownsMac_iff present] at owns
    rw [mem_macs_withMacAddr nonemptyNew]
    have notOld : macAddr ≠ node.macAddr := by
      rintro rfl
      exact unlinked nonempty isUsed
    rcases mem_macs.mp owns with isMac | isWlan
    · exact absurd isMac.1 notOld
    · exact .inr ⟨isWlan, notOld⟩
  · exact owns

theorem replaceWlanMac (links : LinkInvariant w) (sites : SiteInvariant w)
    (present : w.topology.nodes[i]? = some node) (nonemptyOld : oldMac ≠ "") :
    LinkMacsValid (w.replaceWlanMac node.name i oldMac newMac) := by
  intro nodeName macAddr nonempty ⟨_, member, uses⟩
  obtain ⟨old, oldMember, rfl⟩ := mem_map.mp member
  rw [sites.ownsMac_modify present (f := withWlanMac oldMac newMac) rfl rfl]
  rcases usesMacAt_replaceLinkMac (links.wellFormed old oldMember) nonemptyOld uses with
    isNew | ⟨usesOld, notOld⟩
  · rw [if_pos isNew.1, mem_macs_withWlanMac]
    exact .inr (.inr isNew.2.1)
  · have owns := valid nodeName macAddr nonempty ⟨old, oldMember, usesOld⟩
    split
    · next isOwn =>
      rw [isOwn, sites.ownsMac_iff present] at owns
      rw [mem_macs_withWlanMac]
      rcases mem_macs.mp owns with isMac | isWlan
      · exact .inl isMac
      · exact .inr (.inl ⟨isWlan, fun same => notOld ⟨isOwn, same⟩⟩)
    · exact owns

theorem appendMacs (sites : SiteInvariant w) {newMacs : List String}
    (present : w.topology.nodes[i]? = some node) :
    LinkMacsValid (w.appendMacs node.name i newMacs) := by
  refine valid.mono (fun _ _ uses => uses) ?_
  intro _ _ owns
  rw [sites.ownsMac_modify present
    (f := fun n => { n with wlanMacAddrs := n.wlanMacAddrs ++ newMacs }) rfl rfl]
  split
  · next isOwn =>
    rw [isOwn, sites.ownsMac_iff present] at owns
    exact mem_macs_appended.mpr (.inl owns)
  · exact owns

theorem deletedMacs (links : LinkInvariant w) (sites : SiteInvariant w)
    {macs : List String} (present : w.topology.nodes[i]? = some node)
    (dropped : (forM macs (deleteNodeWlanMac i (w.getLinksByNodeName node.name) force)).run w =
      .ok () w') : LinkMacsValid w' := by
  have frame := deleteNodeWlanMacs_frame dropped
  intro nodeName macAddr nonempty ⟨link, member, uses⟩
  obtain ⟨inLinks, kept⟩ := ((links.deletedMacs_links dropped).2 link).mp member
  have owns := valid nodeName macAddr nonempty ⟨link, inLinks, uses⟩
  rw [sites.ownsMac_modify present frame.nodes rfl]
  split
  · next isOwn =>
    rw [isOwn, sites.ownsMac_iff present] at owns
    rw [mem_macs] at owns ⊢
    rcases owns with isMac | isWlan
    · exact .inl isMac
    · have notDeleted : macAddr ∉ macs := by
        intro deleted
        exact kept macAddr deleted ⟨isOwn ▸ uses.incident, uses.carries⟩
      exact .inr ((mem_wlan_of_not_deleted notDeleted).mpr isWlan)
  · exact owns

end

/-! ### Runs -/

variable {mac : MacUtils}

theorem accepted (start : Accepted mac given w) : LinkMacsValid w := by
  obtain ⟨_, _, _, _, built⟩ := start
  obtain ⟨v, populated, linked⟩ := construct_ok built
  have links := (populateMaps_ok populated).1
  have sound := MacSound.populateMaps populated
  have valid : LinkMacsValid v := by
    intro _ _ nonempty ⟨link, member, uses⟩
    exact (links.macsOwned link member).ownsMac sound nonempty uses
  exact valid.siteLinked sound linked

/-- The MACs of links stay owned, if no link names clash and no linked `mac_addr` is replaced. -/
theorem step {op : TopologyOp} (valid : LinkMacsValid w) (sound : MacSound w)
    (links : LinkInvariant w) (sites : SiteInvariant w) (apart : LinkNamesApart w op)
    (unlinked : UnlinkedMac w op) (taken : Step mac w op w') : LinkMacsValid w' := by
  cases step_effect sites.nodeIndex taken with
  | attributes same => exact valid.shape same
  | addNode checked linked =>
    exact (valid.insertNode _).siteLinked (sound.insertNode checked) linked
  | delNode stored _ unlinked => exact valid.delNode links sites stored unlinked
  | retype =>
    exact valid.congr rfl (modifyNode_ownership w _ fun _ => by simp [ownership])
  | @rename _ newNode i node stored present typeFixed renamed _ fresh =>
    have edited : LinkMacsValid (w.modifyNode i (editProps newNode)) :=
      valid.congr rfl (modifyNode_ownership w _ fun _ => by simp [ownership])
    have sitesEdited := sites.modifyNode i (editProps newNode) fun n => by simp [placement]
    exact edited.renameNode (links.edited sites stored present typeFixed) sitesEdited stored
      (modifyNode_present present) fresh (apart renamed) node
  | addLink checked => exact valid.pushLink sound checked.macsOwned
  | delLink =>
    refine valid.mono ?_ fun _ _ owns => owns
    rintro _ _ ⟨link, member, uses⟩
    exact ⟨link, mem_of_mem_eraseIdx member, uses⟩
  | addSite nonempty fresh | delSite stored unused => exact valid.congr rfl rfl
  | renameSite _ _ same =>
    exact (valid.shape same).congr (renameSite_links _ _ _ _)
      ((sites.shape same).renameSite_ownership _ _ _)
  | setNodeMacByName stored present nonempty =>
    cases sites.nodeIndex.sound.key_eq stored present
    exact valid.replaceMacAddr sites present nonempty (unlinked _ (sites.getNode_eq stored present))
  | changeNodeWlanMac standardizedOld _ stored present =>
    cases sites.nodeIndex.sound.key_eq stored present
    exact valid.replaceWlanMac links sites present (mac.standardizeMac_ne_empty _ _ standardizedOld)
  | addNodeWlanMacs stored =>
    obtain ⟨_, present, named⟩ := (sites.nodeIndex _ _).mp stored
    cases named
    exact valid.appendMacs sites present
  | deleteNodeWlanMacs stored _ _ dropped =>
    obtain ⟨_, present, named⟩ := (sites.nodeIndex _ _).mp stored
    cases named
    exact valid.deletedMacs links sites present dropped

theorem of_runsTo (distinct : ∀ topology, given topology → DistinctLinkNames topology)
    (apart : ∀ v op, allowed v op → LinkNamesApart v op)
    (unlinked : ∀ v op, allowed v op → UnlinkedMac v op) (reached : RunsTo mac given allowed w) :
    LinkMacsValid w := by
  -- the invariants the step lemma needs hold in every state of the run
  induction reached with
  | start initial => exact accepted initial
  | step reached permitted taken valid =>
    exact valid.step (.of_runsTo reached) (.of_runsTo distinct apart reached)
      (.of_runsTo reached) (apart _ _ permitted) (unlinked _ _ permitted) taken

end LinkMacsValid

/-! ### Main result -/

theorem LinkMacsValid.mac_of_node (valid : LinkMacsValid w) (sites : SiteInvariant w)
    (member : link ∈ w.topology.links) (inNodes : node ∈ w.topology.nodes)
    (nonempty : macAddr ≠ "") (uses : usesMacAt link node.name macAddr) :
    macAddr = node.macAddr ∨ macAddr ∈ node.wlanMacAddrs := by
  obtain ⟨i, present⟩ := getElem?_of_mem inNodes
  have owns := valid node.name macAddr nonempty ⟨link, member, uses⟩
  rw [sites.ownsMac_iff present, mem_macs] at owns
  exact owns.imp And.left id

/-- If the given links have pairwise distinct canonical names, no rename makes link names clash
and no `setNodeMacByName` replaces a MAC that a link names, then in every state of the run both
nodes of a link exist, are not both CNs and own the MACs that the link names on their side, and
the link is oriented and named canonically. -/
theorem links_referentially_valid (mac : MacUtils) (w : TopologyWrapper)
    (reached : RunsTo mac DistinctLinkNames
      (fun v op => LinkNamesApart v op ∧ UnlinkedMac v op) w) :
    ∀ link ∈ w.topology.links, ∃ aNode ∈ w.topology.nodes, ∃ zNode ∈ w.topology.nodes,
      aNode.name = link.aNodeName ∧ zNode.name = link.zNodeName ∧
      ¬ (aNode.nodeType = .CN ∧ zNode.nodeType = .CN) ∧
      link.aNodeName < link.zNodeName ∧
      link.name = "link-" ++ link.aNodeName ++ "-" ++ link.zNodeName ∧
      (link.aNodeMac ≠ "" → link.aNodeMac = aNode.macAddr ∨ link.aNodeMac ∈ aNode.wlanMacAddrs) ∧
      (link.zNodeMac ≠ "" →
        link.zNodeMac = zNode.macAddr ∨ link.zNodeMac ∈ zNode.wlanMacAddrs) := by
  have sites := SiteInvariant.of_runsTo reached
  have links := LinkInvariant.of_runsTo (fun _ distinct => distinct) (fun _ _ allowed => allowed.1)
    reached
  have valid := LinkMacsValid.of_runsTo (fun _ distinct => distinct)
    (fun _ _ allowed => allowed.1) (fun _ _ allowed => allowed.2) reached
  intro link member
  obtain ⟨aKnown, zKnown, notBothCn, _, ordered, named⟩ := links.wellFormed link member
  rw [getNode_ne_none_iff] at aKnown zKnown
  obtain ⟨_, isAType⟩ := ne_none_iff_exists'.mp aKnown
  obtain ⟨_, isZType⟩ := ne_none_iff_exists'.mp zKnown
  obtain ⟨aNode, aMember, aNamed, rfl⟩ := sites.nodeTypeOf_eq_some_iff.mp isAType
  obtain ⟨zNode, zMember, zNamed, rfl⟩ := sites.nodeTypeOf_eq_some_iff.mp isZType
  rw [isAType, isZType, some.injEq, some.injEq] at notBothCn
  refine ⟨aNode, aMember, zNode, zMember, aNamed, zNamed, notBothCn, ordered, named, ?_, ?_⟩
  · intro nonempty
    exact valid.mac_of_node sites member aMember nonempty (.inl ⟨aNamed.symm, rfl⟩)
  · intro nonempty
    exact valid.mac_of_node sites member zMember nonempty (.inr ⟨zNamed.symm, rfl⟩)

/-- The two ends of a wireless link whose first node has the first MAC. -/
def linkedPair : Topology :=
  oneSite [{ name := "a", macAddr := "02:00:00:00:00:01" }, { name := "b" }]
    [{ aNodeName := "a", zNodeName := "b", linkType := .WIRELESS,
       aNodeMac := "02:00:00:00:00:01" }]

/-- A link names the first MAC of `a`, and the `mac_addr` of `b`, which no link names, is set. -/
theorem links_referentially_valid_after_setNodeMacByName :
    ∃ w, build twoMacs .sorted linkedPair false
        [.setNodeMacByName "b" "02:00:00:00:00:02" false] = .ok w ∧
      w.topology.links.map Link.aNodeMac = ["02:00:00:00:00:01"] ∧
      ∀ link ∈ w.topology.links, ∃ aNode ∈ w.topology.nodes, aNode.name = link.aNodeName ∧
        (link.aNodeMac ≠ "" →
          link.aNodeMac = aNode.macAddr ∨ link.aNodeMac ∈ aNode.wlanMacAddrs) := by
  refine build_exists (fun w => w.topology.links.map Link.aNodeMac) ["02:00:00:00:00:01"]
    (by decide) ?_
  intro w built macs
  have reached : RunsTo twoMacs DistinctLinkNames
      (fun v op => LinkNamesApart v op ∧ UnlinkedMac v op) w :=
    build_runsTo (by decide) (by decide) built
  refine ⟨macs, ?_⟩
  intro link member
  obtain ⟨aNode, aMember, _, _, aNamed, _, _, _, _, aMac, _⟩ :=
    links_referentially_valid _ w reached link member
  exact ⟨aNode, aMember, aNamed, aMac⟩

/-- `setNodeMacByName` leaves the link of `a` with the old `mac_addr`, which nobody owns. -/
theorem links_referentially_valid_fails : ∃ w, Reachable twoMacs w ∧
      ∃ link ∈ w.topology.links, link.aNodeMac = "02:00:00:00:00:01" ∧ ∀ node ∈ w.topology.nodes,
          link.aNodeMac ≠ node.macAddr ∧ link.aNodeMac ∉ node.wlanMacAddrs := by
  obtain ⟨w, reached, seen⟩ := reachable_of_build twoMacs .sorted linkedPair false
    [.setNodeMacByName "a" "02:00:00:00:00:02" false]
    (fun w => decide (∃ link ∈ w.topology.links, link.aNodeMac = "02:00:00:00:00:01" ∧
      ∀ node ∈ w.topology.nodes,
        link.aNodeMac ≠ node.macAddr ∧ link.aNodeMac ∉ node.wlanMacAddrs)) true (by decide)
  exact ⟨w, reached, of_decide_eq_true seen⟩

end References

section Limits

/-! ### The links of a radio -/

variable (w)

def TopologyWrapper.radioLinks (nodeName radioMac : String) : List Link :=
  w.topology.links.filter fun link =>
    link.linkType = .WIRELESS ∧ usesMacAt link nodeName radioMac

def DnDn (link : Link) : Prop :=
  w.nodeTypeOf link.aNodeName = some .DN ∧ w.nodeTypeOf link.zNodeName = some .DN

instance (w : TopologyWrapper) : DecidablePred (DnDn w) :=
  fun _ => inferInstanceAs (Decidable (_ ∧ _))

/-- The limits for one radio of one node. -/
structure WithinLimits (nodeName radioMac : String) : Prop where
  total : (w.radioLinks nodeName radioMac).length ≤ kMaxNumOfDnCnLinks
  dnDn : w.nodeTypeOf nodeName = some .DN →
    ((w.radioLinks nodeName radioMac).filter (DnDn w)).length ≤ kMaxNumOfDnDnLinks
  primary : w.nodeTypeOf nodeName = some .CN →
    ((w.radioLinks nodeName radioMac).filter isPrimary).length ≤ 1

def RadioLimits : Prop :=
  ∀ nodeName radioMac, radioMac ≠ "" → WithinLimits w nodeName radioMac

/-- The step does not change a WLAN MAC to one that a link of the node already names. -/
def FreshRadio (mac : MacUtils) (w : TopologyWrapper) : TopologyOp → Prop
  | .changeNodeWlanMac nodeName _ newMacAddr _ =>
    ∀ newMac, mac.standardizeMac newMacAddr = .ok newMac →
      ¬ ∃ link ∈ w.topology.links, usesMacAt link nodeName newMac
  | _ => True

instance (mac : MacUtils) (w : TopologyWrapper) : ∀ op, Decidable (FreshRadio mac w op) := by
  rintro (_ | _) <;> dsimp only [FreshRadio] <;> infer_instance

variable {w} {radioMac : String}

theorem mem_radioLinks : link ∈ w.radioLinks nodeName radioMac ↔ link ∈ w.topology.links ∧
      link.linkType = .WIRELESS ∧ usesMacAt link nodeName radioMac := by
  simp [radioLinks]

theorem dnDn_iff_at_end (ends : incident nodeName link) :
    DnDn w link ↔ w.nodeTypeOf nodeName = some .DN ∧
      w.nodeTypeOf (nbrNodeName link nodeName) = some .DN := by
  unfold DnDn
  by_cases isA : link.aNodeName = nodeName
  · rw [nbrNodeName_of_a isA, isA]
  · rw [nbrNodeName_of_z isA, ends.resolve_left isA, and_comm]

theorem usesMacAt.radioMacAt_eq (uses : usesMacAt link nodeName radioMac)
    (ordered : link.aNodeName < link.zNodeName) :
    radioMacAt link nodeName = radioMac := by
  rcases uses with ⟨rfl, rfl⟩ | ⟨rfl, rfl⟩
  · simp [radioMacAt]
  · simp [radioMacAt, ne_of_lt ordered]

theorem WithinLimits.of_no_links (apart : ∀ link ∈ w.topology.links, ¬ incident nodeName link) :
    WithinLimits w nodeName radioMac := by
  have empty : w.radioLinks nodeName radioMac = [] := by
    apply filter_eq_nil_iff.mpr
    intro link member
    simp only [decide_eq_true_eq, not_and]
    intro _ uses
    exact apart link member uses.incident
  refine ⟨?_, ?_, ?_⟩ <;> simp [empty]

/-! ### Carrying limits from one state to another -/

/-- Rewriting links by `f` and leaving some out does not increase a count that ignores liveness. -/
theorem length_filter_le {links links' : List Link} {f : Link → Link} {p p' : Link → Bool}
    (rewritten : (links'.map Link.shape).Sublist (links.map fun link => (f link).shape))
    (shaped : ∀ link, p' link.shape = p' link)
    (back : ∀ link ∈ links, p' (f link) = true → p link = true) :
    (links'.filter p').length ≤ (links.filter p).length := by
  have same : p' ∘ Link.shape = p' := funext shaped
  have unshaped : ((links'.map Link.shape).filter p').length = (links'.filter p').length := by
    rw [filter_map, length_map, same]
  calc (links'.filter p').length
      = ((links'.map Link.shape).filter p').length := unshaped.symm
    _ ≤ ((links.map fun link => (f link).shape).filter p').length :=
        (rewritten.filter p').length_le
    _ = (links.filter fun link => p' (f link)).length := by
        rw [filter_map, length_map]
        congr 2
        funext link
        exact shaped (f link)
    _ ≤ (links.filter p).length := by
        rw [← countP_eq_length_filter, ← countP_eq_length_filter]
        exact countP_mono_left back

theorem WithinLimits.transfer {nodeName' radioMac' : String}
    (within : WithinLimits w nodeName radioMac) {f : Link → Link}
    (rewritten : (w'.topology.links.map Link.shape).Sublist
      (w.topology.links.map fun link => (f link).shape))
    (type : ∀ nodeType, w'.nodeTypeOf nodeName' = some nodeType →
      w.nodeTypeOf nodeName = some nodeType)
    (back : ∀ link ∈ w.topology.links, (f link).linkType = .WIRELESS →
      usesMacAt (f link) nodeName' radioMac' →
      link.linkType = .WIRELESS ∧ usesMacAt link nodeName radioMac ∧
        (DnDn w' (f link) → DnDn w link) ∧ isPrimary (f link) = isPrimary link) :
    WithinLimits w' nodeName' radioMac' := by
  have counted : ∀ q q' : Link → Bool, (∀ link, q' link.shape = q' link) →
      (∀ link ∈ w.topology.links, (f link).linkType = .WIRELESS →
        usesMacAt (f link) nodeName' radioMac' → q' (f link) = true → q link = true) →
      ((w'.radioLinks nodeName' radioMac').filter q').length ≤
        ((w.radioLinks nodeName radioMac).filter q).length := by
    intro q _ shaped implied
    unfold radioLinks
    rw [filter_filter, filter_filter]
    refine length_filter_le rewritten ?_ ?_
    · intro link
      rw [shaped]
      rfl
    · intro link member both
      simp only [Bool.and_eq_true, decide_eq_true_eq] at both ⊢
      obtain ⟨holds, wireless, uses⟩ := both
      obtain ⟨wasWireless, used, _⟩ := back link member wireless uses
      exact ⟨implied link member wireless uses holds, wasWireless, used⟩
  have all := counted (fun _ => true) (fun _ => true) (fun _ => rfl) (fun _ _ _ _ _ => rfl)
  rw [filter_true, filter_true] at all
  refine ⟨all.trans within.total, ?_, ?_⟩
  · intro isDn
    refine le_trans (counted (DnDn w) (DnDn w') (fun _ => rfl) ?_) (within.dnDn (type _ isDn))
    intro link member wireless uses holds
    exact decide_eq_true ((back link member wireless uses).2.2.1 (of_decide_eq_true holds))
  · intro isCn
    refine le_trans (counted isPrimary isPrimary (fun _ => rfl) ?_) (within.primary (type _ isCn))
    intro link member wireless uses holds
    exact (back link member wireless uses).2.2.2.symm.trans holds

/-! ### What the check of one link establishes -/

theorem pushLink_links (link : Link) :
    (w.pushLink link).topology.links = w.topology.links ++ [link] := rfl

theorem pushLink_types (link : Link) : (w.pushLink link).nodeTypeOf = w.nodeTypeOf := rfl

/-- The check of a link looks at the other links only, so the link itself may be there already. -/
theorem validateMaxLinks_pushLink (link : Link) :
    (w.pushLink link).validateMaxLinks link = w.validateMaxLinks link := by
  have counts : ∀ nodeName, (w.pushLink link).wirelessLinkCount nodeName link =
      w.wirelessLinkCount nodeName link := by
    intro nodeName
    unfold wirelessLinkCount getLinksByNodeName getLinksByRadioMac
    simp only [pushLink_links]
    split_ifs <;> simp
  have names : ∀ nodeName nodeType, (w.pushLink link).linkNamesToType nodeName link nodeType =
      w.linkNamesToType nodeName link nodeType := by
    intro nodeName nodeType
    apply Finset.ext
    intro name
    simp [linkNamesToType, sameRadioLinks, getLinksByNodeName, pushLink_links, pushLink_types]
    grind
  have others : ∀ nodeName, (∃ other ∈ (w.pushLink link).sameRadioLinks nodeName
        (radioMacAt link nodeName), other.name ≠ link.name ∧ isPrimary other = true) ↔
      ∃ other ∈ w.sameRadioLinks nodeName (radioMacAt link nodeName),
        other.name ≠ link.name ∧ isPrimary other = true := by
    intro nodeName
    simp [sameRadioLinks, getLinksByNodeName, pushLink_links]
    grind
  unfold validateMaxLinks validateNodeMaxLinks validateTypedMaxLinks
  simp only [counts, names, others, pushLink_types]

theorem validateMaxLinks_at_end (passed : w.validateMaxLinks link = .ok ())
    (wireless : link.linkType = .WIRELESS) (ends : incident nodeName link) :
    w.validateTypedMaxLinks nodeName (nbrNodeName link nodeName) link = .ok () ∧
      w.wirelessLinkCount nodeName link < kMaxNumOfDnCnLinks := by
  obtain ⟨_, atA, atZ⟩ := except_bind_eq_ok.mp passed
  have ofNode : ∀ name nbr, w.validateNodeMaxLinks name nbr link = .ok () →
      w.validateTypedMaxLinks name nbr link = .ok () ∧
        w.wirelessLinkCount name link < kMaxNumOfDnCnLinks := by
    intro _ _ checked
    unfold validateNodeMaxLinks at checked
    rw [if_neg (not_not.mpr wireless)] at checked
    obtain ⟨_, typed, counted⟩ := except_bind_eq_ok.mp checked
    exact ⟨typed, not_le.mp (reject_eq_ok.mp counted)⟩
  by_cases isA : link.aNodeName = nodeName
  · rw [nbrNodeName_of_a isA, ← isA]
    exact ofNode _ _ atA
  · rw [nbrNodeName_of_z isA, ← ends.resolve_left isA]
    exact ofNode _ _ atZ

section Checked

theorem LinkInvariant.radioLinks_names (links : LinkInvariant w) (nodeName radioMac : String) :
    ((w.radioLinks nodeName radioMac).map Link.name).Nodup :=
  links.index.nodup.sublist (filter_sublist.map Link.name)

theorem LinkInvariant.radioLinks_of_name (links : LinkInvariant w)
    (nodeName radioMac linkName : String) :
    ((w.radioLinks nodeName radioMac).filter fun other => other.name = linkName).length ≤ 1 := by
  have once := nodup_iff_count_le_one.mp (links.radioLinks_names nodeName radioMac) linkName
  rw [count, countP_map, countP_eq_length_filter] at once
  exact once

theorem mem_sameRadioLinks (onRadio : link ∈ w.radioLinks nodeName radioMac) :
    link ∈ w.sameRadioLinks nodeName radioMac := by
  obtain ⟨inLinks, wireless, uses⟩ := mem_radioLinks.mp onRadio
  refine mem_filter.mpr ⟨mem_getLinksByNodeName.mpr ⟨inLinks, uses.incident⟩, ?_⟩
  rw [decide_eq_true_eq]
  refine ⟨wireless, ?_⟩
  intro ⟨_, notA, notZ⟩
  exact uses.carries.elim notA notZ

variable (links : LinkInvariant w) (onRadio : link ∈ w.radioLinks nodeName radioMac)
  (passed : w.validateMaxLinks link = .ok ())
include links onRadio passed

theorem LinkInvariant.total_of_checked (nonempty : radioMac ≠ "") :
    (w.radioLinks nodeName radioMac).length ≤ kMaxNumOfDnCnLinks := by
  obtain ⟨member, wireless, uses⟩ := mem_radioLinks.mp onRadio
  have bound := (validateMaxLinks_at_end passed wireless uses.incident).2
  have isRadio := uses.radioMacAt_eq (links.wellFormed link member).ordered
  have others : ((w.radioLinks nodeName radioMac).filter fun other =>
      ¬ (other.name = link.name)).length ≤ w.wirelessLinkCount nodeName link := by
    unfold wirelessLinkCount getLinksByRadioMac radioLinks
    simp only [isRadio, if_neg nonempty, filter_filter]
    rw [← countP_eq_length_filter, ← countP_eq_length_filter]
    apply countP_mono_left
    intro _ _ counted
    simp only [Bool.and_eq_true, decide_eq_true_eq] at counted ⊢
    exact ⟨⟨counted.2.1, counted.1⟩, counted.2.2.carries⟩
  have itself := links.radioLinks_of_name nodeName radioMac link.name
  have split := length_eq_length_filter_add (l := w.radioLinks nodeName radioMac)
    (fun other => decide (other.name = link.name))
  simp only [← decide_not] at split
  omega

theorem LinkInvariant.dnDn_of_checked (isDnDn : DnDn w link) :
    ((w.radioLinks nodeName radioMac).filter (DnDn w)).length ≤ kMaxNumOfDnDnLinks := by
  obtain ⟨member, wireless, uses⟩ := mem_radioLinks.mp onRadio
  obtain ⟨isDn, nbrDn⟩ := (dnDn_iff_at_end uses.incident).mp isDnDn
  have typed := (validateMaxLinks_at_end passed wireless uses.incident).1
  unfold validateTypedMaxLinks at typed
  simp only [isDn, nbrDn, reject_eq_ok, not_lt] at typed
  have isRadio := uses.radioMacAt_eq (links.wellFormed link member).ordered
  have nodup : (((w.radioLinks nodeName radioMac).filter (DnDn w)).map Link.name).Nodup :=
    (links.radioLinks_names nodeName radioMac).sublist (filter_sublist.map Link.name)
  have names : (((w.radioLinks nodeName radioMac).filter (DnDn w)).map Link.name).toFinset ⊆
      w.linkNamesToType nodeName link .DN := by
    intro _ isName
    rw [mem_toFinset] at isName
    obtain ⟨other, otherMember, rfl⟩ := mem_map.mp isName
    obtain ⟨otherOnRadio, otherDnDn⟩ := mem_filter.mp otherMember
    obtain ⟨_, _, otherUses⟩ := mem_radioLinks.mp otherOnRadio
    have otherNbr := ((dnDn_iff_at_end otherUses.incident).mp (of_decide_eq_true otherDnDn)).2
    unfold linkNamesToType
    rw [Finset.mem_insert, mem_toFinset]
    refine .inr (mem_map.mpr ⟨other, mem_filter.mpr ⟨?_, ?_⟩, rfl⟩)
    · rw [isRadio]
      exact mem_sameRadioLinks otherOnRadio
    · exact decide_eq_true otherNbr
  calc ((w.radioLinks nodeName radioMac).filter (DnDn w)).length
      = (((w.radioLinks nodeName radioMac).filter (DnDn w)).map Link.name).length :=
        (length_map _).symm
    _ = (((w.radioLinks nodeName radioMac).filter (DnDn w)).map Link.name).toFinset.card :=
        (toFinset_card_of_nodup nodup).symm
    _ ≤ (w.linkNamesToType nodeName link .DN).card := Finset.card_le_card names
    _ ≤ kMaxNumOfDnDnLinks := typed

theorem LinkInvariant.primary_of_checked (valid : NodesValid w) (sites : SiteInvariant w)
    (isCn : w.nodeTypeOf nodeName = some .CN) (primary : isPrimary link = true) :
    ((w.radioLinks nodeName radioMac).filter isPrimary).length ≤ 1 := by
  obtain ⟨member, wireless, uses⟩ := mem_radioLinks.mp onRadio
  have wellFormed := links.wellFormed link member
  -- the other end is a DN, since it exists and is not a CN
  have nbrDn : w.nodeTypeOf (nbrNodeName link nodeName) = some .DN := by
    obtain ⟨_, _, nbrKnown, notBothCn⟩ := wellFormed.at_end uses.incident
    obtain ⟨_, isType⟩ := Option.ne_none_iff_exists'.mp nbrKnown
    obtain ⟨nbr, nbrMember, _, rfl⟩ := sites.nodeTypeOf_eq_some_iff.mp isType
    rcases (valid nbr nbrMember).2 with dn | cn
    · rw [isType, dn]
    · rw [cn] at isType
      exact absurd ⟨isCn, isType⟩ notBothCn
  have typed := (validateMaxLinks_at_end passed wireless uses.incident).1
  unfold validateTypedMaxLinks at typed
  simp only [isCn, nbrDn, reject_eq_ok, primary, true_and, not_exists, not_and] at typed
  have isRadio := uses.radioMacAt_eq wellFormed.ordered
  refine le_trans ?_ (links.radioLinks_of_name nodeName radioMac link.name)
  rw [← countP_eq_length_filter, ← countP_eq_length_filter]
  apply countP_mono_left
  intro other otherOnRadio otherPrimary
  by_contra otherName
  rw [decide_eq_true_eq] at otherName
  refine typed other ?_ otherName otherPrimary
  rw [isRadio]
  exact mem_sameRadioLinks otherOnRadio

end Checked

/-! ### The limits along a run -/

variable {i : Nat}

namespace RadioLimits

theorem length_le_of_mem {α : Type} {items : List α} {n : Nat}
    (bound : ∀ item ∈ items, items.length ≤ n) : items.length ≤ n := by
  cases items with
  | nil => exact Nat.zero_le n
  | cons item => exact bound item (by simp)

theorem of_checked (links : LinkInvariant w) (valid : NodesValid w) (sites : SiteInvariant w)
    (passed : ∀ link ∈ w.topology.links, w.validateMaxLinks link = .ok ()) : RadioLimits w := by
  intro nodeName radioMac nonempty
  have checked : ∀ link ∈ w.radioLinks nodeName radioMac, w.validateMaxLinks link = .ok () :=
    fun link onRadio => passed link (mem_radioLinks.mp onRadio).1
  refine ⟨?_, ?_, ?_⟩
  · apply length_le_of_mem
    intro link onRadio
    exact links.total_of_checked onRadio (checked link onRadio) nonempty
  · intro isDn
    apply length_le_of_mem
    intro link found
    obtain ⟨onRadio, isDnDn⟩ := mem_filter.mp found
    exact links.dnDn_of_checked onRadio (checked link onRadio) (of_decide_eq_true isDnDn)
  · intro isCn
    apply length_le_of_mem
    intro link found
    obtain ⟨onRadio, primary⟩ := mem_filter.mp found
    exact links.primary_of_checked onRadio (checked link onRadio) valid sites isCn primary

theorem length_filter_push {α : Type} {items : List α} {item : α} {p : α → Bool} {n : Nat}
    (before : (items.filter p).length ≤ n)
    (after : p item = true → ((items ++ [item]).filter p).length ≤ n) :
    ((items ++ [item]).filter p).length ≤ n := by
  by_cases counted : p item = true
  · exact after counted
  · rw [filter_append, filter_cons_of_neg counted, filter_nil, append_nil]
    exact before

section

variable (limits : RadioLimits w)
include limits

theorem pushLink (links : LinkInvariant w) (valid : NodesValid w)
    (sites : SiteInvariant w) (checked : LinkChecked w link)
    (passed : w.validateMaxLinks link = .ok ()) : RadioLimits (w.pushLink link) := by
  have linksAfter := links.pushLink checked
  have sitesAfter := sites.frame (LinkFrame.pushLink w link)
  rw [← validateMaxLinks_pushLink] at passed
  intro nodeName radioMac nonempty
  have onRadio : ∀ counts : decide (link.linkType = .WIRELESS ∧
      usesMacAt link nodeName radioMac) = true,
      link ∈ (w.pushLink link).radioLinks nodeName radioMac :=
    fun counts => mem_filter.mpr ⟨mem_append_right _ mem_cons_self, counts⟩
  obtain ⟨total, dnDn, primary⟩ := limits nodeName radioMac nonempty
  simp only [radioLinks, filter_filter] at dnDn primary
  refine ⟨length_filter_push total ?_, ?_, ?_⟩
  · intro counts
    exact linksAfter.total_of_checked (onRadio counts) passed nonempty
  · intro isDn
    simp only [radioLinks, filter_filter]
    refine length_filter_push (dnDn isDn) ?_
    intro both
    obtain ⟨isDnDn, counts⟩ := Bool.and_eq_true_iff.mp both
    rw [← filter_filter]
    exact linksAfter.dnDn_of_checked (onRadio counts) passed (of_decide_eq_true isDnDn)
  · intro isCn
    simp only [radioLinks, filter_filter]
    refine length_filter_push (primary isCn) ?_
    intro both
    obtain ⟨isPrimary, counts⟩ := Bool.and_eq_true_iff.mp both
    rw [← filter_filter]
    exact linksAfter.primary_of_checked (onRadio counts) passed valid sitesAfter isCn isPrimary

theorem sublist
    (links : (w'.topology.links.map Link.shape).Sublist (w.topology.links.map Link.shape))
    (types : ∀ nodeName nodeType, w'.nodeTypeOf nodeName = some nodeType →
      w.nodeTypeOf nodeName = some nodeType) : RadioLimits w' := by
  intro nodeName radioMac nonempty
  refine (limits nodeName radioMac nonempty).transfer (f := id) links (types nodeName) ?_
  intro _ _ wireless uses
  exact ⟨wireless, uses, fun isDnDn => ⟨types _ _ isDnDn.1, types _ _ isDnDn.2⟩, rfl⟩

theorem congr (links : w'.topology.links.map Link.shape = w.topology.links.map Link.shape)
    (types : w'.nodeTypeOf = w.nodeTypeOf) : RadioLimits w' := by
  refine limits.sublist (links ▸ .refl _) ?_
  rw [types]
  exact fun _ _ => id

/-- The links stay, and so do the types of all nodes but one, which has no links. -/
theorem of_unlinked {changed : String} (links : w'.topology.links = w.topology.links)
    (apart : ∀ link ∈ w.topology.links, ¬ incident changed link)
    (types : ∀ nodeName, nodeName ≠ changed → w'.nodeTypeOf nodeName = w.nodeTypeOf nodeName) :
    RadioLimits w' := by
  intro nodeName radioMac nonempty
  by_cases isChanged : nodeName = changed
  · rw [isChanged]
    apply WithinLimits.of_no_links
    rw [links]
    exact apart
  · refine (limits nodeName radioMac nonempty).transfer (f := id) ?_ ?_ ?_
    · rw [links]
      exact List.Sublist.refl _
    · rw [types nodeName isChanged]
      exact fun _ => id
    · intro link member wireless uses
      have ends := apart link member
      rw [not_incident_iff] at ends
      refine ⟨wireless, uses, ?_, rfl⟩
      intro ⟨aDn, zDn⟩
      exact ⟨(types _ ends.1).symm.trans aDn, (types _ ends.2).symm.trans zDn⟩

end

/-- What renaming a node does to a link, as far as the limits look at it. -/
theorem substLink_counted (links : LinkInvariant w)
    (stored : w.name2Node nodeName = some i) (fresh : w.name2Node newName = none) (given : Node)
    (member : link ∈ w.topology.links) :
    (substLink nodeName newName link).linkType = link.linkType ∧
      isPrimary (substLink nodeName newName link) = isPrimary link ∧
      (DnDn (renameNode nodeName newName i given w) (substLink nodeName newName link) →
        DnDn w link) ∧
      ∀ ownerName radioMac, usesMacAt (substLink nodeName newName link) ownerName radioMac →
        (ownerName = newName ∧ usesMacAt link nodeName radioMac) ∨
          (ownerName ≠ newName ∧ usesMacAt link ownerName radioMac) := by
  obtain ⟨renamedType, otherTypes⟩ := nodeTypeOf_renameNode stored fresh given
  have notNew := links.not_incident fresh member
  unfold substLink
  split
  · next ends =>
    have wellFormed := links.wellFormed link member
    have apart := links.nbr_ne_unused fresh nodeName member
    have nbrApart := (wellFormed.at_end ends).1
    have renamed := renameLinkEnd_renamedEnd wellFormed.ordered ends apart
    have nbrType := otherTypes _ nbrApart apart.symm
    refine ⟨renamed.attributes.1, ?_, ?_, ?_⟩
    · unfold isPrimary
      rw [renamed.attributes.2.2.2]
    · intro ⟨aDn, zDn⟩
      rw [dnDn_iff_at_end ends, ← renamedType, ← nbrType]
      rcases renamed.ends with ⟨isA, isZ, _⟩ | ⟨isA, isZ, _⟩
      · rw [isA] at aDn
        rw [isZ] at zDn
        exact ⟨aDn, zDn⟩
      · rw [isA] at aDn
        rw [isZ] at zDn
        exact ⟨zDn, aDn⟩
    · intro _ _ uses
      rcases renamed.usesMacAt wellFormed ends uses with isNew | ⟨_, usesOld⟩
      · exact .inl isNew
      · refine .inr ⟨?_, usesOld⟩
        rintro rfl
        exact notNew usesOld.incident
  · next apart =>
    refine ⟨rfl, rfl, ?_, ?_⟩
    · rw [not_incident_iff] at apart notNew
      intro ⟨aDn, zDn⟩
      exact ⟨(otherTypes _ apart.1 notNew.1).symm.trans aDn,
        (otherTypes _ apart.2 notNew.2).symm.trans zDn⟩
    · intro _ _ uses
      refine .inr ⟨?_, uses⟩
      rintro rfl
      exact notNew uses.incident

theorem renameNode (limits : RadioLimits w) (links : LinkInvariant w)
    (stored : w.name2Node nodeName = some i) (fresh : w.name2Node newName = none)
    (free : CollisionFree w nodeName newName) (given : Node) :
    RadioLimits (renameNode nodeName newName i given w) := by
  obtain ⟨renamedType, otherTypes⟩ := nodeTypeOf_renameNode stored fresh given
  have rewritten : ((Terragraph.renameNode nodeName newName i given w).topology.links.map
      Link.shape).Sublist
        (w.topology.links.map fun link => (substLink nodeName newName link).shape) := by
    rw [renameNode_links i given (free.resolves links.index), map_map]
    exact .refl _
  intro ownerName radioMac nonempty
  by_cases isNew : ownerName = newName
  · refine (limits nodeName radioMac nonempty).transfer rewritten ?_ ?_
    · rw [isNew, renamedType]
      exact fun _ => id
    · intro _ member wireless uses
      obtain ⟨sameType, samePrimary, dnDn, used⟩ := substLink_counted links stored fresh given member
      rcases used ownerName radioMac uses with ⟨_, usesOld⟩ | ⟨notNew, _⟩
      · exact ⟨sameType ▸ wireless, usesOld, dnDn, samePrimary⟩
      · exact absurd isNew notNew
  · refine (limits ownerName radioMac nonempty).transfer rewritten ?_ ?_
    · intro _ isType
      by_cases isOld : ownerName = nodeName
      · rw [isOld, nodeTypeOf_eq, renameNode_name2Node, Function.update_self] at isType
        cases isType
      · rw [← otherTypes ownerName isOld isNew]
        exact isType
    · intro _ member wireless uses
      obtain ⟨sameType, samePrimary, dnDn, used⟩ := substLink_counted links stored fresh given member
      rcases used ownerName radioMac uses with ⟨asNew, _⟩ | ⟨_, usesOld⟩
      · exact absurd asNew isNew
      · exact ⟨sameType ▸ wireless, usesOld, dnDn, samePrimary⟩

/-- The links of the old MAC move to the new one, which had none. -/
theorem replaceWlanMac (limits : RadioLimits w) (links : LinkInvariant w)
    (nonemptyOld : oldMac ≠ "")
    (unused : ¬ ∃ link ∈ w.topology.links, usesMacAt link nodeName newMac) :
    RadioLimits (w.replaceWlanMac nodeName i oldMac newMac) := by
  have types : (w.replaceWlanMac nodeName i oldMac newMac).nodeTypeOf = w.nodeTypeOf :=
    nodeTypeOf_congr rfl (map_modify_of_keeps Node.nodeType _ i _ fun _ _ => rfl)
  have rewritten : ((w.replaceWlanMac nodeName i oldMac newMac).topology.links.map
      Link.shape).Sublist
        (w.topology.links.map fun link => (replaceLinkMac nodeName oldMac newMac link).shape) := by
    show ((w.topology.links.map (replaceLinkMac nodeName oldMac newMac)).map Link.shape).Sublist _
    rw [map_map]
    exact .refl _
  have kept : ∀ link, (DnDn (w.replaceWlanMac nodeName i oldMac newMac)
        (replaceLinkMac nodeName oldMac newMac link) → DnDn w link) ∧
      isPrimary (replaceLinkMac nodeName oldMac newMac link) = isPrimary link := by
    intro link
    unfold DnDn isPrimary
    rw [types]
    simp
  intro ownerName radioMac nonempty
  -- the radio that had the links before
  by_cases isNew : ownerName = nodeName ∧ radioMac = newMac
  · refine (limits nodeName oldMac nonemptyOld).transfer rewritten ?_ ?_
    · rw [types, isNew.1]
      exact fun _ => id
    · intro link member wireless uses
      rw [replaceLinkMac_linkType] at wireless
      rcases usesMacAt_replaceLinkMac (links.wellFormed link member) nonemptyOld uses with
        ⟨_, _, usesOld⟩ | ⟨usesNew, _⟩
      · exact ⟨wireless, usesOld, kept link⟩
      · rw [isNew.1, isNew.2] at usesNew
        exact absurd ⟨link, member, usesNew⟩ unused
  · refine (limits ownerName radioMac nonempty).transfer rewritten ?_ ?_
    · rw [types]
      exact fun _ => id
    · intro link member wireless uses
      rw [replaceLinkMac_linkType] at wireless
      rcases usesMacAt_replaceLinkMac (links.wellFormed link member) nonemptyOld uses with
        ⟨isNode, isMac, _⟩ | ⟨usesStill, _⟩
      · exact absurd ⟨isNode, isMac⟩ isNew
      · exact ⟨wireless, usesStill, kept link⟩

end RadioLimits

/-! ### Runs -/

variable {v v' : TopologyWrapper}

theorem delLinks_sublist {snapshot : List Link}
    (run : (delLinks snapshot force).run v =
      .ok () v') : v'.topology.links.Sublist v.topology.links := by
  refine forM_invariant (fun t => t.topology.links.Sublist v.topology.links) (.refl _) run ?_
  intro _ _ t _ soFar step
  obtain ⟨i, _, rfl⟩ := delLink_ok step
  exact (eraseIdx_sublist t.topology.links i).trans soFar

theorem deletedMacs_sublist {nodeLinks : List Link} {macs : List String}
    (dropped : (forM macs (deleteNodeWlanMac i nodeLinks force)).run v = .ok () v') :
    v'.topology.links.Sublist v.topology.links := by
  obtain ⟨u, deleting, rfl⟩ := deleteMacs_ok dropped
  have remaining := delLinks_sublist deleting
  exact remaining

theorem SiteInvariant.types_of_subset (sites : SiteInvariant w)
    (sites' : SiteInvariant w') (nodes : w'.topology.nodes ⊆ w.topology.nodes)
    (nodeName : String) (nodeType : NodeType) (isType : w'.nodeTypeOf nodeName = some nodeType) :
    w.nodeTypeOf nodeName = some nodeType := by
  obtain ⟨node, member, named, typed⟩ := sites'.nodeTypeOf_eq_some_iff.mp isType
  exact sites.nodeTypeOf_eq_some_iff.mpr ⟨node, nodes member, named, typed⟩

namespace RadioLimits

section

variable (limits : RadioLimits w)
include limits

theorem shape (same : SameShape w w') : RadioLimits w' :=
  limits.congr same.links same.types

theorem siteLinked (links : LinkInvariant w) (valid : NodesValid w)
    (sites : SiteInvariant w) (linked : SiteLinked w w') : RadioLimits w' := by
  induction linked with
  | refl => exact limits
  | touch _ _ ih =>
    exact ih.congr rfl (nodeTypeOf_congr rfl rfl)
  | @add v _ before checked passed ih =>
    have validBefore : NodesValid v :=
      valid.subset (by rw [before.nodes]; exact List.Subset.refl _)
    exact ih.pushLink (links.siteLinked before) validBefore (sites.siteLinked before) checked passed

theorem insertNode (links : LinkInvariant w) (sites : SiteInvariant w)
    (checked : NodeChecked w node) : RadioLimits (w.insertNode node) :=
  limits.of_unlinked rfl (fun _ member => links.not_incident checked.fresh member)
    fun _ other => nodeTypeOf_insertNode sites checked other

theorem edited (sites : SiteInvariant w)
    {newNode : Node} (stored : w.name2Node nodeName = some i)
    (present : w.topology.nodes[i]? = some node)
    (typeFixed : hasNewType node newNode → w.getLinksByNodeName nodeName = []) :
    RadioLimits (w.modifyNode i (editProps newNode)) := by
  by_cases newType : hasNewType node newNode
  · refine limits.of_unlinked rfl (not_incident_of_no_links (typeFixed newType)) ?_
    intro _ apart
    exact nodeTypeOf_modifyNode sites stored apart
  · refine limits.shape (SameShape.modifyNode w i _ ?_)
    intro _ presentOther
    cases present.symm.trans presentOther
    exact editProps_shape newType

end

variable {mac : MacUtils}

theorem accepted (start : Accepted mac DistinctLinkNames w) : RadioLimits w := by
  obtain ⟨_, _, _, distinct, built⟩ := start
  obtain ⟨v, populated, linked⟩ := construct_ok built
  have populatedLinks := (populateMaps_ok populated).1
  have sites := SiteInvariant.populateMaps populated
  have valid := NodesValid.populateMaps populated
  have links := LinkInvariant.populated_distinct populatedLinks distinct
  exact (of_checked links valid sites populatedLinks.limits).siteLinked links valid sites linked

/-- The radios stay within limits, if no link names clash and a WLAN MAC is not changed to one that
links of the node name. -/
theorem step {op : TopologyOp} (limits : RadioLimits w) (links : LinkInvariant w)
    (valid : NodesValid w) (sites : SiteInvariant w) (apart : LinkNamesApart w op)
    (freshRadio : FreshRadio mac w op) (taken : Step mac w op w') : RadioLimits w' := by
  have sitesAfter := sites.step taken
  cases step_effect sites.nodeIndex taken with
  | attributes same => exact limits.shape same
  | addNode checked linked =>
    exact (limits.insertNode links sites checked).siteLinked (links.insertNode sites checked)
      (valid.insertNode checked) (sites.insertNode checked) linked
  | @delNode _ _ _ _ _ _ unlinked =>
    have remaining := delLinks_sublist unlinked
    rw [removeNode_links] at remaining
    refine limits.sublist (remaining.map _) (sites.types_of_subset sitesAfter ?_)
    rw [(delLinks_frame unlinked).nodes, removeNode_nodes]
    exact eraseIdx_subset
  | retype stored present _ noLinks =>
    exact limits.edited sites stored present fun _ => noLinks
  | @rename _ _ _ node stored present typeFixed renamed _ fresh =>
    have edited := limits.edited sites stored present typeFixed
    exact edited.renameNode (links.edited sites stored present typeFixed) stored fresh
      (apart renamed) node
  | addLink checked passed => exact limits.pushLink links valid sites checked passed
  | delLink => exact limits.sublist ((eraseIdx_sublist _ _).map _) fun _ _ => id
  | addSite nonempty fresh | delSite stored unused =>
    exact limits.congr rfl (nodeTypeOf_congr rfl rfl)
  | renameSite _ _ same =>
    refine (limits.shape same).congr (by rw [renameSite_links]) ?_
    exact renameSite_types _ _ _ _
  | setNodeMacByName =>
    exact limits.congr rfl (nodeTypeOf_congr rfl
      (map_modify_of_keeps Node.nodeType _ _ (withMacAddr _ _) fun _ _ => rfl))
  | changeNodeWlanMac standardizedOld standardizedNew =>
    exact limits.replaceWlanMac links (mac.standardizeMac_ne_empty _ _ standardizedOld)
      (freshRadio _ standardizedNew)
  | addNodeWlanMacs =>
    refine limits.congr rfl (nodeTypeOf_congr rfl (map_modify_of_keeps Node.nodeType _ _ _ ?_))
    intro node _
    rfl
  | deleteNodeWlanMacs _ _ _ dropped =>
    have frame := deleteNodeWlanMacs_frame dropped
    have types : w'.nodeTypeOf = w.nodeTypeOf := by
      refine nodeTypeOf_congr frame.name2Node ?_
      rw [frame.nodes]
      exact map_modify_of_keeps Node.nodeType _ _ (dropWlanMacs _) fun _ _ => rfl
    refine limits.sublist ((deletedMacs_sublist dropped).map _) ?_
    rw [types]
    exact fun _ _ => id

theorem of_runsTo (distinct : ∀ topology, given topology → DistinctLinkNames topology)
    (apart : ∀ v op, allowed v op → LinkNamesApart v op)
    (freshRadio : ∀ v op, allowed v op → FreshRadio mac v op) (reached : RunsTo mac given allowed w) :
    RadioLimits w := by
  induction reached with
  | start initial => exact accepted (initial.mono distinct)
  | step reached permitted taken limits =>
    exact limits.step (.of_runsTo distinct apart reached) (.of_runsTo reached)
      (.of_runsTo reached) (apart _ _ permitted) (freshRadio _ _ permitted) taken

end RadioLimits

/-! ### Main result -/

/-- If the given links have pairwise distinct canonical names, no rename makes link names clash
and no WLAN MAC is changed to one that a link of the node already names, then in every state of
the run every radio is within its limits. -/
theorem radio_limits_hold (mac : MacUtils) (w : TopologyWrapper)
    (reached : RunsTo mac DistinctLinkNames
      (fun v op => LinkNamesApart v op ∧ FreshRadio mac v op) w) :
    ∀ node ∈ w.topology.nodes, ∀ radioMac, radioMac ≠ "" →
      (w.radioLinks node.name radioMac).length ≤ kMaxNumOfDnCnLinks ∧
      (node.nodeType = .DN →
        ((w.radioLinks node.name radioMac).filter (DnDn w)).length ≤ kMaxNumOfDnDnLinks) ∧
      (node.nodeType = .CN → ((w.radioLinks node.name radioMac).filter isPrimary).length ≤ 1) := by
  have sites := SiteInvariant.of_runsTo reached
  have limits := RadioLimits.of_runsTo (fun _ distinct => distinct)
    (fun _ _ allowed => allowed.1) (fun _ _ allowed => allowed.2) reached
  intro node member radioMac nonempty
  have within := limits node.name radioMac nonempty
  have type := sites.nodeTypeOf_eq_some_iff.mpr ⟨node, member, rfl, rfl⟩
  refine ⟨within.total, ?_, ?_⟩
  · intro isDn
    exact within.dnDn (by rw [type, isDn])
  · intro isCn
    exact within.primary (by rw [type, isCn])

theorem threeMacs_nonempty :
    "" ∉ ["02:00:00:00:00:01", "02:00:00:00:00:02", "02:00:00:00:00:03"] := by
  decide

def threeMacs : MacUtils :=
  .ofCanonical ["02:00:00:00:00:01", "02:00:00:00:00:02", "02:00:00:00:00:03"] threeMacs_nonempty

/-- A CN with one primary link on its `mac_addr` and one on its WLAN MAC. -/
def dualHomedCn : Topology :=
  oneSite
    [{ name := "c", nodeType := .CN, macAddr := "02:00:00:00:00:01",
       wlanMacAddrs := ["02:00:00:00:00:02"] }, { name := "d" }, { name := "e" }]
    [{ aNodeName := "c", zNodeName := "d", linkType := .WIRELESS,
       aNodeMac := "02:00:00:00:00:01" },
      { aNodeName := "c", zNodeName := "e", linkType := .WIRELESS,
        aNodeMac := "02:00:00:00:00:02" }]

/-- The WLAN MAC is changed to one that no link names. -/
theorem radio_limits_hold_after_changeNodeWlanMac : ∃ w, build threeMacs .sorted dualHomedCn false
        [.changeNodeWlanMac "c" "02:00:00:00:00:02" "02:00:00:00:00:03" false] = .ok w ∧
      (w.radioLinks "c" "02:00:00:00:00:03").map Link.name = ["link-c-e"] ∧
      ∀ node ∈ w.topology.nodes, node.nodeType = .CN →
        ((w.radioLinks node.name "02:00:00:00:00:03").filter isPrimary).length ≤ 1 := by
  refine build_exists (fun w => (w.radioLinks "c" "02:00:00:00:00:03").map Link.name) ["link-c-e"]
    (by decide) ?_
  intro w built onRadio
  have reached : RunsTo threeMacs DistinctLinkNames
      (fun v op => LinkNamesApart v op ∧ FreshRadio threeMacs v op) w :=
    build_runsTo (by decide) (by decide) built
  refine ⟨onRadio, ?_⟩
  intro node member
  exact (radio_limits_hold _ w reached node member "02:00:00:00:00:03" (by decide)).2.2

/-- `setNodeMacByName` leaves the link to `d` on the old `mac_addr`, which is free again, so a WLAN
MAC can be changed to it: two primary links on one radio of the CN. -/
theorem radio_limits_hold_fails : ∃ w, Reachable threeMacs w ∧ DistinctLinkNames dualHomedCn ∧
      ∃ node ∈ w.topology.nodes, node.nodeType = .CN ∧
        ((w.radioLinks node.name "02:00:00:00:00:01").filter isPrimary).length = 2 := by
  obtain ⟨w, reached, seen⟩ := reachable_of_build threeMacs .sorted dualHomedCn false
    [.setNodeMacByName "c" "02:00:00:00:00:03" false,
      .changeNodeWlanMac "c" "02:00:00:00:00:02" "02:00:00:00:00:01" false]
    (fun w => decide (∃ node ∈ w.topology.nodes, node.nodeType = .CN ∧
      ((w.radioLinks node.name "02:00:00:00:00:01").filter isPrimary).length = 2)) true (by decide)
  exact ⟨w, reached, by decide, of_decide_eq_true seen⟩

end Limits

end Terragraph
