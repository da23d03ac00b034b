/-
Module: Terragraph.Topology.Run
Purpose: What the validating constructor establishes, and the runs of the topology wrapper.
Trusted boundary: human-reviewed list of mutators
Main exports: construct_ok, TopologyOp, step_effect
-/
import Terragraph.Lib.Transition
import Terragraph.Topology.Steps

namespace Terragraph

open Guarded List TopologyWrapper Function

/-! ### Sites -/

/-- The state after the site loop: sites are indexed, everything about nodes is still empty. -/
structure SitesPopulated (w : TopologyWrapper) : Prop where
  siteIndex : KeyIndex.Exact Site.name w.topology.sites w.name2Site
  siteNamed : ∀ site ∈ w.topology.sites, site.name ≠ ""
  noNodes : w.topology.nodes = []
  name2Node : w.name2Node = fun _ => none
  mac2NodeName : w.mac2NodeName = fun _ => none
  site2AssocNodes : w.site2AssocNodes = fun _ => none

variable {w w' : TopologyWrapper}

theorem populateSites_ok {sites : List Site} (empty : w.name2Site = fun _ => none)
    (run : (forM sites.zipIdx fun entry => populateSite true entry.1 entry.2).run w = .ok () w') :
    KeyIndex.Exact Site.name sites w'.name2Site ∧ (∀ site ∈ sites, site.name ≠ "") ∧
      w' = { w with name2Site := w'.name2Site } := by
  have loop := forM_zipIdx_invariant
    (fun k v => KeyIndex.Exact Site.name (sites.take k) v.name2Site ∧
      (∀ site ∈ sites.take k, site.name ≠ "") ∧ v = { w with name2Site := v.name2Site })
    ⟨by intro name i; simp [empty], by simp, rfl⟩ run ?_
  · rw [take_length] at loop
    exact loop
  intro k site present v _ holds step
  obtain ⟨exact, named, frame⟩ := holds
  simp only [populateSite, check_bind_eq_ok, modify_eq_ok] at step
  obtain ⟨_, validated, rfl⟩ := step
  obtain ⟨nonempty, fresh⟩ := validateSite_ok validated
  have bound : k < sites.length := (List.getElem?_eq_some_iff.mp present).1
  have next : sites.take (k + 1) = sites.take k ++ [site] := by
    rw [take_add_one, present]
    rfl
  have length : (sites.take k).length = k := by
    rw [length_take]
    omega
  refine ⟨?_, ?_, ?_⟩
  · have extended := exact.snoc (r := site) fresh
    rw [length] at extended
    rw [next]
    exact extended
  · rw [next, forall_mem_append, forall_mem_singleton]
    exact ⟨named, nonempty⟩
  · rw [frame]

/-! ### Nodes -/

variable {α : Type}

private theorem take_modify_succ {records : List α} {k : Nat} {r : α}
    (inside : k < records.length) :
    (records.modify k fun _ => r).take (k + 1) = records.take k ++ [r] := by
  have length : (records.take k).length = k := by
    rw [length_take]
    omega
  rw [modify_eq_take_cons_drop inside, take_append, length]
  simp

variable {mac : MacUtils}

/-- One iteration of the node loop inserts into the part of the vector it has passed. -/
theorem populateNode_ok {given : Node} {k : Nat} {v v' : TopologyWrapper}
    (inside : k < v.topology.nodes.length) (run : (populateNode mac true given k).run v = .ok () v') :
    ∃ node, NodeChecked (v.withNodes (v.topology.nodes.take k)) node ∧
      v'.topology.nodes.length = v.topology.nodes.length ∧
      v'.withNodes (v'.topology.nodes.take (k + 1)) =
        (v.withNodes (v.topology.nodes.take k)).insertNode node := by
  simp only [populateNode, plugNodeToSite, check_bind_eq_ok, modify_bind_eq_ok, modify_eq_ok] at run
  obtain ⟨_, standardized, node, validated, _, placed, rfl⟩ := run
  have checked : NodeChecked (v.withNodes (v.topology.nodes.take k)) node :=
    nodeChecked_of_validated standardized validated placed
  have length : (v.topology.nodes.take k).length = k := by
    rw [length_take]
    omega
  refine ⟨node, checked, length_modify .., ?_⟩
  simp only [insertNode, withNodes, modifyNode,
    associate, assocNodes, take_modify_succ inside, length]

theorem populateNodes_ok {nodes : List Node} (property : TopologyWrapper → Prop)
    (length : w.topology.nodes.length = nodes.length) (initially : property (w.withNodes []))
    (inserted : ∀ v node, property v → NodeChecked v node → property (v.insertNode node))
    (run : (forM nodes.zipIdx fun entry => populateNode mac true entry.1 entry.2).run w =
      .ok () w') : property w' := by
  have loop := forM_zipIdx_invariant (fun k v => v.topology.nodes.length = nodes.length ∧
      property (v.withNodes (v.topology.nodes.take k)))
    ⟨length, by simpa using initially⟩ run ?_
  · obtain ⟨length', holds⟩ := loop
    rw [← length', take_length] at holds
    exact holds
  intro k _ present v _ holds step
  obtain ⟨length, holds⟩ := holds
  have inside : k < v.topology.nodes.length := by
    rw [length]
    exact (List.getElem?_eq_some_iff.mp present).1
  obtain ⟨node, checked, length', next⟩ := populateNode_ok inside step
  refine ⟨length'.trans length, ?_⟩
  rw [next]
  exact inserted _ node holds checked

/-! ### Links -/

/-- What the two link loops leave behind, for the links of the given topology. -/
structure LinksPopulated (given : List Link) (w : TopologyWrapper) : Prop where
  wellFormed : ∀ link ∈ w.topology.links, LinkWellFormed w link
  macsOwned : ∀ link ∈ w.topology.links, LinkMacsOwned w link
  limits : ∀ link ∈ w.topology.links, w.validateMaxLinks link = .ok ()
  indexed : KeyIndex.Sound Link.name w.topology.links w.name2Link
  known : ∀ link ∈ w.topology.links, w.name2Link link.name ≠ none
  names : w.topology.links.map Link.name =
    given.map fun link => buildLinkName link.aNodeName link.zNodeName

theorem standardizeLinkMacs_ok {link std : Link}
    (standardized : standardizeLinkMacs mac link = .ok std) :
    std.aNodeName = link.aNodeName ∧ std.zNodeName = link.zNodeName := by
  simp only [standardizeLinkMacs, except_bind_eq_ok] at standardized
  obtain ⟨_, _, _, _, final⟩ := standardized
  cases final
  exact ⟨rfl, rfl⟩

theorem populateLinks_ok {given : List Link} (isGiven : w.topology.links = given)
    (run : (forM given.zipIdx fun entry => populateLink mac true entry.1 entry.2).run w =
      .ok () w') :
    LinkFrame w w' ∧ w'.name2Link = w.name2Link ∧
      (∀ link ∈ w'.topology.links, LinkWellFormed w link ∧ LinkMacsOwned w link) ∧
      w'.topology.links.map Link.name =
        given.map fun link => buildLinkName link.aNodeName link.zNodeName := by
  have loop := forM_zipIdx_invariant (fun k v => LinkFrame w v ∧ v.name2Link = w.name2Link ∧
      v.topology.links.length = given.length ∧
      (∀ link ∈ v.topology.links.take k, LinkWellFormed w link ∧ LinkMacsOwned w link) ∧
      (v.topology.links.take k).map Link.name =
        (given.take k).map fun link => buildLinkName link.aNodeName link.zNodeName)
    ⟨LinkFrame.refl w, rfl, by rw [isGiven], by simp, by simp⟩ run ?_
  · obtain ⟨frame, sameIndex, length, checked, names⟩ := loop
    rw [take_length] at names
    rw [← length, take_length] at checked names
    exact ⟨frame, sameIndex, checked, names⟩
  intro k _ present v _ holds step
  obtain ⟨frame, sameIndex, length, checked, names⟩ := holds
  simp only [populateLink, check_bind_eq_ok, modify_bind_eq_ok, check_eq_ok] at step
  obtain ⟨_, standardized, valid, validated, _, rfl⟩ := step
  obtain ⟨sameA, sameZ⟩ := standardizeLinkMacs_ok standardized
  obtain ⟨fields, sameA', sameZ'⟩ := validateLinkFields_ok validated
  have inside : k < v.topology.links.length := by
    rw [length]
    exact (List.getElem?_eq_some_iff.mp present).1
  have taken : (v.modifyLink k fun _ => valid).topology.links.take (k + 1) =
      v.topology.links.take k ++ [valid] := take_modify_succ inside
  refine ⟨frame.trans (LinkFrame.withLinks v _), sameIndex, ?_, ?_, ?_⟩
  · exact (length_modify ..).trans length
  · rw [taken, forall_mem_append, forall_mem_singleton]
    exact ⟨checked, fields.wellFormed.frame frame.symm, fields.macsOwned.frame frame.symm⟩
  · rw [taken, map_append, names, take_add_one, present]
    simp [fields.wellFormed.named, sameA, sameZ, sameA', sameZ']

theorem indexLinks_ok {links : List Link} (empty : w.name2Link = fun _ => none)
    (run : (forM links.zipIdx fun entry => indexLink true entry.1 entry.2).run w = .ok () w') :
    w' = { w with name2Link := w'.name2Link } ∧ (∀ link ∈ links, w.validateMaxLinks link = .ok ()) ∧
      KeyIndex.Sound Link.name links w'.name2Link ∧
      ∀ link ∈ links, w'.name2Link link.name ≠ none := by
  have loop := forM_zipIdx_invariant (fun k v => v = { w with name2Link := v.name2Link } ∧
      (∀ link ∈ links.take k, w.validateMaxLinks link = .ok ()) ∧
      KeyIndex.Sound Link.name links v.name2Link ∧
      ∀ link ∈ links.take k, v.name2Link link.name ≠ none)
    ⟨rfl, by simp, by intro name i stored; simp [empty] at stored, by simp⟩ run ?_
  · rw [take_length] at loop
    exact loop
  intro k link present v _ holds step
  obtain ⟨frame, limits, sound, known⟩ := holds
  simp only [indexLink, check_bind_eq_ok, modify_eq_ok] at step
  obtain ⟨_, limited, rfl⟩ := step
  have next : links.take (k + 1) = links.take k ++ [link] := by
    rw [take_add_one, present]
    rfl
  refine ⟨by rw [frame], ?_, ?_, ?_⟩
  · rw [frame] at limited
    rw [next, forall_mem_append, forall_mem_singleton]
    exact ⟨limits, limited⟩
  · intro name i stored
    dsimp only at stored
    by_cases same : name = link.name
    · rw [same, update_self] at stored
      cases stored
      exact ⟨link, present, same.symm⟩
    · rw [update_of_ne same] at stored
      exact sound name i stored
  · intro other member
    dsimp only
    rw [next] at member
    by_cases same : other.name = link.name
    · simp [same]
    · rw [update_of_ne same]
      rcases mem_append.mp member with old | new
      · exact known other old
      · exact absurd (congrArg Link.name (mem_singleton.mp new)) same

/-! ### The constructor -/

/-- `populateMaps` in validating mode: what holds with sites only, is kept by inserting a checked
node and does not look at links holds afterwards, and the links are in order. -/
theorem populateMaps_ok (run : (populateMaps mac true).run w = .ok () w') :
    LinksPopulated w.topology.links w' ∧
      ∀ property : TopologyWrapper → Prop, (∀ v, SitesPopulated v → property v) →
        (∀ v node, property v → NodeChecked v node → property (v.insertNode node)) →
        (∀ v v', property v → LinkFrame v v' → property v') → property w' := by
  unfold populateMaps at run
  rw [modify_bind_eq_ok, get_bind_eq_ok, bind_eq_ok] at run
  obtain ⟨_, v₁, siteLoop, run⟩ := run
  rw [bind_eq_ok] at run
  obtain ⟨_, v₂, nodeLoop, run⟩ := run
  rw [bind_eq_ok] at run
  obtain ⟨_, v₃, linkLoop, indexLoop⟩ := run
  obtain ⟨siteIndex, siteNamed, siteFrame⟩ := populateSites_ok rfl siteLoop
  have length : v₁.topology.nodes.length = w.topology.nodes.length := by rw [siteFrame]
  have untouched : v₂.topology.links = w.topology.links ∧ v₂.name2Link = fun _ => none := by
    refine populateNodes_ok (fun v => v.topology.links = w.topology.links ∧
      v.name2Link = fun _ => none) length ?_ ?_ nodeLoop
    · rw [siteFrame]
      exact ⟨rfl, rfl⟩
    · intro v _ same _
      exact same
  obtain ⟨frame, sameIndex, checked, names⟩ := populateLinks_ok untouched.1 linkLoop
  obtain ⟨indexFrame, limits, sound, known⟩ :=
    indexLinks_ok (sameIndex.trans untouched.2) indexLoop
  have lastFrame : LinkFrame v₃ w' := by
    rw [indexFrame]
    exact ⟨rfl, rfl, rfl, rfl, rfl, rfl, rfl⟩
  have sameLinks : w'.topology.links = v₃.topology.links := by rw [indexFrame]
  refine ⟨⟨?_, ?_, ?_, ?_, ?_, ?_⟩, ?_⟩
  · intro link member
    rw [sameLinks] at member
    exact (checked link member).1.frame (frame.trans lastFrame)
  · intro link member
    rw [sameLinks] at member
    exact (checked link member).2.frame (frame.trans lastFrame)
  · intro link member
    rw [sameLinks] at member
    rw [indexFrame]
    exact limits link member
  · rw [sameLinks]
    exact sound
  · rw [sameLinks]
    exact known
  · rw [sameLinks]
    exact names
  · intro property sitesOnly inserted framed
    refine framed v₂ w' ?_ (frame.trans lastFrame)
    refine populateNodes_ok property length (sitesOnly _ ?_) inserted nodeLoop
    rw [siteFrame]
    exact ⟨siteIndex, siteNamed, rfl, rfl, rfl, rfl⟩

/-- The validating constructor runs `populateMaps` and then at most adds links inside sites. -/
theorem construct_ok {order : SetOrder} {topology : Topology} {createIntrasiteLinks : Bool}
    (built : construct mac order topology true createIntrasiteLinks = .ok w) :
    ∃ v, (populateMaps mac true).run (.ofTopology topology createIntrasiteLinks) = .ok () v ∧
      SiteLinked v w := by
  unfold construct at built
  simp only at built
  split at built
  · next _ _ run =>
    cases built
    rw [bind_eq_ok] at run
    obtain ⟨_, v, populated, run⟩ := run
    refine ⟨v, populated, ?_⟩
    split at run
    · exact createSiteLinks_ok run
    · cases run
      exact .refl
  · cases built

/-- The mutators of `TopologyWrapper` with their arguments. -/
inductive TopologyOp where
  | addNode (newNode : Node)
  | delNode (nodeName : String) (force : Bool)
  | editNode (nodeName : String) (newNode : Node)
  | addLink (newLink : Link)
  | delLink (aNodeName zNodeName : String) (force : Bool)
  | addSite (newSite : Site)
  | delSite (siteName : String)
  | editSite (siteName : String) (newSite : Site)
  | setNodeMacByName (nodeName macAddr : String) (force : Bool)
  | changeNodeWlanMac (nodeName oldMac newMac : String) (force : Bool)
  | addNodeWlanMacs (nodeName : String) (wlanMacAddrs : List String)
  | deleteNodeWlanMacs (nodeName : String) (wlanMacAddrs : List String) (force : Bool)
  | setNodePrefix (nodeName : String) (nodePrefix : Option String)
  | setNodeStatus (nodeName : String) (status : NodeStatusType)
  | setLinkStatus (linkName : String) (alive : Bool)
  | bumpLinkupAttempts (linkName : String)
  | resetLinkupAttempts (linkName : String)
  | setLocation (nodeMac : String) (location : Location)
deriving DecidableEq

/-- Run a mutator and drop its result. -/
def exec (mac : MacUtils) (order : SetOrder) : TopologyOp → TopologyM Unit
  | .addNode newNode => discard (addNode mac order newNode)
  | .delNode nodeName force => delNode nodeName force
  | .editNode nodeName newNode => editNode nodeName newNode
  | .addLink newLink => discard (addLink mac newLink)
  | .delLink aNodeName zNodeName force => delLink aNodeName zNodeName force
  | .addSite newSite => addSite newSite
  | .delSite siteName => delSite siteName
  | .editSite siteName newSite => editSite siteName newSite
  | .setNodeMacByName nodeName macAddr force => setNodeMacByName mac nodeName macAddr force
  | .changeNodeWlanMac nodeName oldMac newMac force =>
    changeNodeWlanMac mac nodeName oldMac newMac force
  | .addNodeWlanMacs nodeName wlanMacAddrs => addNodeWlanMacs mac nodeName wlanMacAddrs
  | .deleteNodeWlanMacs nodeName wlanMacAddrs force =>
    deleteNodeWlanMacs mac nodeName wlanMacAddrs force
  | .setNodePrefix nodeName nodePrefix => setNodePrefix nodeName nodePrefix
  | .setNodeStatus nodeName status => discard (setNodeStatus nodeName status)
  | .setLinkStatus linkName alive => discard (setLinkStatus linkName alive)
  | .bumpLinkupAttempts linkName => discard (bumpLinkupAttempts linkName)
  | .resetLinkupAttempts linkName => discard (resetLinkupAttempts linkName)
  | .setLocation nodeMac location => discard (setLocation mac nodeMac location)

def Step (mac : MacUtils) (w : TopologyWrapper) (op : TopologyOp) (w' : TopologyWrapper) : Prop :=
  ∃ order, (exec mac order op).run w = .ok () w'

def Accepted (mac : MacUtils) (given : Topology → Prop) (w : TopologyWrapper) : Prop :=
  ∃ order topology createIntrasiteLinks, given topology ∧
    construct mac order topology true createIntrasiteLinks = .ok w

theorem Accepted.mono {given given' : Topology → Prop} (start : Accepted mac given w)
    (weaker : ∀ topology, given topology → given' topology) :
    Accepted mac given' w := by
  obtain ⟨order, topology, createIntrasiteLinks, isGiven, built⟩ := start
  exact ⟨order, topology, createIntrasiteLinks, weaker topology isGiven, built⟩

/-- The states reached from an accepted topology by successful mutators, under two conditions. -/
abbrev RunsTo (mac : MacUtils) (given : Topology → Prop)
    (allowed : TopologyWrapper → TopologyOp → Prop) : TopologyWrapper → Prop :=
  Transition.Reaches (Accepted mac given) (Step mac) allowed

abbrev Reachable (mac : MacUtils) : TopologyWrapper → Prop :=
  RunsTo mac (fun _ => True) (fun _ _ => True)

/-- What a successful mutator does. -/
inductive Effect (mac : MacUtils) (w : TopologyWrapper) : TopologyOp → TopologyWrapper → Prop where
  | attributes {op : TopologyOp} {w' : TopologyWrapper} (same : SameShape w w') : Effect mac w op w'
  | addNode {newNode node : Node} {w' : TopologyWrapper} (checked : NodeChecked w node)
      (linked : SiteLinked (w.insertNode node) w') : Effect mac w (.addNode newNode) w'
  | delNode {force : Bool} {i : Nat} {node : Node} {w' : TopologyWrapper}
      (stored : w.name2Node node.name = some i) (present : w.topology.nodes[i]? = some node)
      (unlinked : (delLinks (w.getLinksByNodeName node.name) true).run (w.removeNode i node) = .ok () w') :
      Effect mac w (.delNode node.name force) w'
  | retype {newNode : Node} {i : Nat} {node : Node}
      (stored : w.name2Node newNode.name = some i) (present : w.topology.nodes[i]? = some node)
      (newType : hasNewType node newNode) (noLinks : w.getLinksByNodeName newNode.name = []) :
      Effect mac w (.editNode newNode.name newNode) (w.modifyNode i (editProps newNode))
  | rename {nodeName : String} {newNode : Node} {i : Nat} {node : Node}
      (stored : w.name2Node nodeName = some i) (present : w.topology.nodes[i]? = some node)
      (typeFixed : hasNewType node newNode → w.getLinksByNodeName nodeName = [])
      (renamed : newNode.name ≠ nodeName) (nonempty : newNode.name ≠ "")
      (fresh : w.name2Node newNode.name = none) :
      Effect mac w (.editNode nodeName newNode)
        (renameNode nodeName newNode.name i node (w.modifyNode i (editProps newNode)))
  | addLink {newLink link : Link} (checked : LinkChecked w link)
      (limits : w.validateMaxLinks link = .ok ()) : Effect mac w (.addLink newLink) (w.pushLink link)
  | delLink {aNodeName zNodeName : String} {force : Bool} {i : Nat}
      (stored : w.name2Link (buildLinkName aNodeName zNodeName) = some i) :
      Effect mac w (.delLink aNodeName zNodeName force)
        (w.eraseLink (buildLinkName aNodeName zNodeName) i)
  | addSite {newSite : Site} (nonempty : newSite.name ≠ "")
      (fresh : w.name2Site newSite.name = none) : Effect mac w (.addSite newSite) (w.pushSite newSite)
  | delSite {siteName : String} {i : Nat} (stored : w.name2Site siteName = some i)
      (unused : w.assocNodes siteName = ∅) :
      Effect mac w (.delSite siteName) (w.eraseSite siteName i)
  | renameSite {siteName : String} {newSite site : Site} {i : Nat} {v : TopologyWrapper}
      (stored : w.name2Site siteName = some i) (present : w.topology.sites[i]? = some site)
      (same : SameShape w v) (sameNodes : v.topology.nodes = w.topology.nodes)
      (renamed : newSite.name ≠ site.name)
      (nonempty : newSite.name ≠ "") (fresh : w.name2Site newSite.name = none) :
      Effect mac w (.editSite siteName newSite) (renameSite siteName newSite.name i v)
  | setNodeMacByName {nodeName macAddr newMac : String} {force : Bool} {i : Nat} {node : Node}
      (stored : w.name2Node nodeName = some i) (present : w.topology.nodes[i]? = some node)
      (nonempty : newMac ≠ "") (changed : node.macAddr ≠ newMac)
      (free : w.mac2NodeName newMac = none ∨ w.mac2NodeName newMac = some nodeName) :
      Effect mac w (.setNodeMacByName nodeName macAddr force)
        (w.replaceMacAddr nodeName i node.macAddr newMac)
  | changeNodeWlanMac {nodeName oldMacAddr newMacAddr oldMac newMac : String} {force : Bool}
      {i : Nat} {node : Node} (standardizedOld : mac.standardizeMac oldMacAddr = .ok oldMac)
      (standardizedNew : mac.standardizeMac newMacAddr = .ok newMac)
      (stored : w.name2Node nodeName = some i) (present : w.topology.nodes[i]? = some node)
      (changed : oldMac ≠ newMac) (owned : oldMac ∈ node.wlanMacAddrs)
      (free : w.mac2NodeName newMac = none) :
      Effect mac w (.changeNodeWlanMac nodeName oldMacAddr newMacAddr force)
        (w.replaceWlanMac nodeName i oldMac newMac)
  | addNodeWlanMacs {nodeName : String} {wlanMacAddrs newMacs : List String} {i : Nat}
      (stored : w.name2Node nodeName = some i)
      (free : ∀ m ∈ newMacs, m ≠ "" ∧ w.mac2NodeName m = none) :
      Effect mac w (.addNodeWlanMacs nodeName wlanMacAddrs) (w.appendMacs nodeName i newMacs)
  | deleteNodeWlanMacs {nodeName : String} {wlanMacAddrs macs : List String} {force : Bool}
      {i : Nat} {w' : TopologyWrapper} (stored : w.name2Node nodeName = some i)
      (standardized : wlanMacAddrs.mapM mac.standardizeMac = .ok macs)
      (owned : ∀ macAddr ∈ macs, w.mac2NodeName macAddr = some nodeName)
      (dropped : (forM macs (deleteNodeWlanMac i (w.getLinksByNodeName nodeName) force)).run w =
        .ok () w') : Effect mac w (.deleteNodeWlanMacs nodeName wlanMacAddrs force) w'

/-- What a successful operation does to the wrapper. -/
theorem step_effect {op : TopologyOp}
    (exact : w.ExactNodes) (step : Step mac w op w') :
    Effect mac w op w' := by
  obtain ⟨_, run⟩ := step
  cases op with
  | addNode =>
    obtain ⟨_, run⟩ := discard_eq_ok run
    obtain ⟨checked, linked⟩ := addNode_ok exact run
    exact .addNode checked linked
  | delNode =>
    obtain ⟨i, _, stored, present, rfl, unlinked⟩ := delNode_ok exact run
    exact .delNode stored present unlinked
  | editNode nodeName newNode =>
    obtain ⟨i, node, stored, present, freshName, typeFixed, rfl⟩ := editNode_ok run
    by_cases renamed : newNode.name = nodeName
    · subst renamed
      rw [if_pos rfl]
      by_cases newType : hasNewType node newNode
      · exact .retype stored present newType (typeFixed newType)
      · refine .attributes (SameShape.modifyNode w i _ ?_)
        intro _ presentOther
        cases present.symm.trans presentOther
        exact editProps_shape newType
    · rw [if_neg renamed]
      obtain ⟨nonempty, fresh⟩ := freshName renamed
      exact .rename stored present typeFixed renamed nonempty fresh
  | addLink =>
    obtain ⟨_, run⟩ := discard_eq_ok run
    obtain ⟨checked, limits, rfl⟩ := addLink_ok run
    exact .addLink checked limits
  | delLink =>
    obtain ⟨i, stored, rfl⟩ := delLink_ok run
    exact .delLink stored
  | addSite =>
    obtain ⟨nonempty, fresh, rfl⟩ := addSite_ok run
    exact .addSite nonempty fresh
  | delSite =>
    obtain ⟨i, stored, unused, rfl⟩ := delSite_ok run
    exact .delSite stored unused
  | editSite =>
    obtain ⟨i, _, v, stored, present, located, outcome⟩ := editSite_ok run
    have same : SameShape w v ∧ v.topology.nodes = w.topology.nodes := by
      rcases located with rfl | rfl
      · exact ⟨SameShape.refl _, rfl⟩
      · exact ⟨SameShape.modifySite w i _ fun _ => rfl, rfl⟩
    rcases outcome with ⟨_, rfl⟩ | ⟨renamed, nonempty, fresh, rfl⟩
    · exact .attributes same.1
    · exact .renameSite stored present same.1 same.2 renamed nonempty fresh
  | setNodeMacByName =>
    obtain ⟨i, _, _, stored, present, nonempty, changed, free, rfl⟩ :=
      setNodeMacByName_ok run
    exact .setNodeMacByName stored present nonempty changed free
  | changeNodeWlanMac _ oldMac newMac =>
    obtain ⟨i, _, _, _, standardizedOld, standardizedNew, stored, present, changed,
      owned, free, rfl⟩ := changeNodeWlanMac_ok run
    exact .changeNodeWlanMac standardizedOld standardizedNew stored present changed owned free
  | addNodeWlanMacs =>
    obtain ⟨i, _, stored, free, rfl⟩ := addNodeWlanMacs_ok run
    exact .addNodeWlanMacs stored free
  | deleteNodeWlanMacs =>
    obtain ⟨i, _, stored, standardized, owned, dropped⟩ := deleteNodeWlanMacs_ok run
    exact .deleteNodeWlanMacs stored standardized owned dropped
  | setNodePrefix =>
    obtain ⟨i, _, rfl⟩ := setNodePrefix_ok run
    exact .attributes (SameShape.modifyNode w i _ fun _ _ => rfl)
  | setNodeStatus =>
    obtain ⟨_, run⟩ := discard_eq_ok run
    exact .attributes (lookup_shape run fun i => .modifyNode w i _ fun _ _ => rfl)
  | setLinkStatus linkName alive | bumpLinkupAttempts linkName | resetLinkupAttempts linkName =>
    obtain ⟨_, run⟩ := discard_eq_ok run
    exact .attributes (lookup_shape run fun i => .modifyLink w i _ fun _ => rfl)
  | setLocation =>
    obtain ⟨_, run⟩ := discard_eq_ok run
    exact .attributes (lookup_shape run fun i => .modifySite w i _ fun _ => rfl)

/-! ### Concrete runs -/

/-- Apply mutators one after the other, as long as they succeed. -/
def replay (mac : MacUtils) (order : SetOrder) :
    TopologyWrapper → List TopologyOp → Except ControllerError TopologyWrapper
  | w, [] => .ok w
  | w, op :: ops =>
    match (exec mac order op).run w with
    | .ok _ w' => replay mac order w' ops
    | .error e _ => .error e

/-- Every step of a replay meets the condition, in the state it is taken in. -/
def Permitted (mac : MacUtils) (order : SetOrder)
    (allowed : TopologyWrapper → TopologyOp → Prop) : TopologyWrapper → List TopologyOp → Prop
  | _, [] => True
  | w, op :: ops =>
    allowed w op ∧ ∀ w', (exec mac order op).run w = .ok () w' → Permitted mac order allowed w' ops

instance decidablePermitted (mac : MacUtils) (order : SetOrder)
    (allowed : TopologyWrapper → TopologyOp → Prop) [∀ w op, Decidable (allowed w op)] :
    ∀ w ops, Decidable (Permitted mac order allowed w ops)
  | _, [] => isTrue trivial
  | w, op :: ops =>
    have : DecidablePred fun w' => Permitted mac order allowed w' ops :=
      fun w' => decidablePermitted mac order allowed w' ops
    inferInstanceAs (Decidable (allowed w op ∧ ∀ w', (exec mac order op).run w = .ok () w' →
      Permitted mac order allowed w' ops))

variable {order : SetOrder} {given : Topology → Prop} {ops : List TopologyOp}

variable {allowed : TopologyWrapper → TopologyOp → Prop}

theorem replay_runsTo
    (reached : RunsTo mac given allowed w) (permitted : Permitted mac order allowed w ops)
    (run : replay mac order w ops = .ok w') :
    RunsTo mac given allowed w' := by
  induction ops generalizing w with
  | nil =>
    cases run
    exact reached
  | cons _ _ ih =>
    rw [replay] at run
    split at run
    · next v stepped =>
      have next := Transition.Reaches.step reached permitted.1 ⟨order, stepped⟩
      exact ih next (permitted.2 v stepped) run
    · cases run

theorem permitted_of_unrestricted (mac : MacUtils) (order : SetOrder) (w : TopologyWrapper)
    (ops : List TopologyOp) : Permitted mac order (fun _ _ => True) w ops := by
  induction ops generalizing w with
  | nil => trivial
  | cons _ _ ih => exact ⟨trivial, fun w' _ => ih w'⟩

def build (mac : MacUtils) (order : SetOrder) (topology : Topology) (createIntrasiteLinks : Bool)
    (ops : List TopologyOp) : Except ControllerError TopologyWrapper :=
  (construct mac order topology true createIntrasiteLinks).bind fun w => replay mac order w ops

variable {topology : Topology}

variable {createIntrasiteLinks : Bool}

theorem build_runsTo (isGiven : given topology)
    (permitted : ∀ v, construct mac order topology true createIntrasiteLinks = .ok v →
      Permitted mac order allowed v ops)
    (run : build mac order topology createIntrasiteLinks ops = .ok w) :
    RunsTo mac given allowed w := by
  obtain ⟨start, constructed, rest⟩ := except_bind_eq_ok.mp run
  have accepted : Accepted mac given start :=
    ⟨order, topology, createIntrasiteLinks, isGiven, constructed⟩
  exact replay_runsTo (.start accepted) (permitted start constructed) rest

theorem build_exists {P : TopologyWrapper → Prop} (view : TopologyWrapper → α) (seen : α)
    (inspected : (build mac order topology createIntrasiteLinks ops).map view = .ok seen)
    (holds : ∀ w, build mac order topology createIntrasiteLinks ops = .ok w → view w = seen → P w) :
    ∃ w, build mac order topology createIntrasiteLinks ops = .ok w ∧ P w := by
  cases outcome : build mac order topology createIntrasiteLinks ops with
  | error =>
    rw [outcome] at inspected
    cases inspected
  | ok w =>
    rw [outcome] at inspected
    cases inspected
    exact ⟨w, rfl, holds w outcome rfl⟩

theorem reachable_of_built
    (built : build mac order topology createIntrasiteLinks ops = .ok w) : Reachable mac w :=
  build_runsTo trivial (fun v _ => permitted_of_unrestricted mac order v ops) built

theorem reachable_of_build (mac : MacUtils) (order : SetOrder) (topology : Topology)
    (createIntrasiteLinks : Bool) (ops : List TopologyOp) (view : TopologyWrapper → α)
    (seen : α) (inspected : (build mac order topology createIntrasiteLinks ops).map view =
      .ok seen) : ∃ w, Reachable mac w ∧ view w = seen := by
  obtain ⟨w, built, isSeen⟩ := build_exists view seen inspected fun _ _ isSeen => isSeen
  exact ⟨w, reachable_of_built built, isSeen⟩

end Terragraph
