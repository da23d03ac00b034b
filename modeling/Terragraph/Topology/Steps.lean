/-
Module: Terragraph.Topology.Steps
Purpose: What each mutator of the topology does when it succeeds.
Trusted boundary: none
Main exports: LinkFrame, delSite_ok
-/
import Terragraph.Topology.Wrapper

namespace Terragraph

open Guarded Function TopologyWrapper EStateM List

/-! ### Link operations leave everything but the links alone -/

/-- The two states agree on everything except the link vector and its index. -/
structure LinkFrame (w w' : TopologyWrapper) : Prop where
  nodes : w'.topology.nodes = w.topology.nodes
  sites : w'.topology.sites = w.topology.sites
  name2Node : w'.name2Node = w.name2Node
  name2Site : w'.name2Site = w.name2Site
  mac2NodeName : w'.mac2NodeName = w.mac2NodeName
  site2AssocNodes : w'.site2AssocNodes = w.site2AssocNodes
  createIntrasiteLinks : w'.createIntrasiteLinks = w.createIntrasiteLinks

variable {w w' : TopologyWrapper}

namespace LinkFrame

variable (w : TopologyWrapper)

theorem refl : LinkFrame w w :=
  ⟨rfl, rfl, rfl, rfl, rfl, rfl, rfl⟩

theorem trans {w₁ w₂ w₃ : TopologyWrapper} (first : LinkFrame w₁ w₂) (second : LinkFrame w₂ w₃) :
    LinkFrame w₁ w₃ :=
  ⟨second.nodes.trans first.nodes, second.sites.trans first.sites,
    second.name2Node.trans first.name2Node, second.name2Site.trans first.name2Site,
    second.mac2NodeName.trans first.mac2NodeName,
    second.site2AssocNodes.trans first.site2AssocNodes,
    second.createIntrasiteLinks.trans first.createIntrasiteLinks⟩

theorem symm (frame : LinkFrame w w') : LinkFrame w' w :=
  ⟨frame.nodes.symm, frame.sites.symm, frame.name2Node.symm, frame.name2Site.symm,
    frame.mac2NodeName.symm, frame.site2AssocNodes.symm, frame.createIntrasiteLinks.symm⟩

theorem withLinks (links : List Link) : LinkFrame w (w.withLinks links) :=
  ⟨rfl, rfl, rfl, rfl, rfl, rfl, rfl⟩

theorem pushLink (link : Link) : LinkFrame w (w.pushLink link) :=
  ⟨rfl, rfl, rfl, rfl, rfl, rfl, rfl⟩

theorem eraseLink (linkName : String) (i : Nat) : LinkFrame w (w.eraseLink linkName i) :=
  ⟨rfl, rfl, rfl, rfl, rfl, rfl, rfl⟩

theorem renameLink (nodeName newName : String) (w : TopologyWrapper) (link : Link) :
    LinkFrame w (renameLink nodeName newName w link) := by
  unfold Terragraph.renameLink
  split
  · exact refl w
  · split
    · exact refl w
    · exact ⟨rfl, rfl, rfl, rfl, rfl, rfl, rfl⟩

theorem renameLinks (nodeName newName : String) (links : List Link) (w : TopologyWrapper) :
    LinkFrame w (links.foldl (Terragraph.renameLink nodeName newName) w) := by
  induction links generalizing w with
  | nil => exact refl w
  | cons link _ ih =>
    exact (renameLink nodeName newName w link).trans (ih _)

theorem getNode (frame : LinkFrame w w') (nodeName : String) :
    w'.getNode nodeName = w.getNode nodeName := by
  simp only [TopologyWrapper.getNode, frame.nodes, frame.name2Node]

end LinkFrame

/-! ### Attributes that no invariant looks at -/

/-- A node without the attributes that are only reported or displayed. -/
def Node.shape (node : Node) : Node :=
  { name := node.name
    nodeType := node.nodeType
    macAddr := node.macAddr
    wlanMacAddrs := node.wlanMacAddrs
    siteName := node.siteName }

def Link.shape (link : Link) : Link :=
  { link with isAlive := false, linkupAttempts := 0 }

/-- The two states differ in such attributes and in locations only. -/
structure SameShape (w w' : TopologyWrapper) : Prop where
  nodes : w'.topology.nodes.map Node.shape = w.topology.nodes.map Node.shape
  links : w'.topology.links.map Link.shape = w.topology.links.map Link.shape
  sites : w'.topology.sites.map Site.name = w.topology.sites.map Site.name
  name2Node : w'.name2Node = w.name2Node
  name2Link : w'.name2Link = w.name2Link
  name2Site : w'.name2Site = w.name2Site
  mac2NodeName : w'.mac2NodeName = w.mac2NodeName
  site2AssocNodes : w'.site2AssocNodes = w.site2AssocNodes
  createIntrasiteLinks : w'.createIntrasiteLinks = w.createIntrasiteLinks

theorem map_modify_of_keeps {α β : Type} (g : α → β) (records : List α) (i : Nat) (f : α → α)
    (keeps : ∀ r, records[i]? = some r → g (f r) = g r) :
    (records.modify i f).map g = records.map g := by
  apply ext_getElem?
  intro j
  rw [getElem?_map, getElem?_map, getElem?_modify]
  cases present : records[j]? with
  | none => rfl
  | some r =>
    by_cases here : i = j
    · subst here
      simp [keeps r present]
    · simp [here]

theorem map_comp_of_map {α β γ : Type} {f : α → β} {records records' : List α} (g : β → γ)
    (same : records'.map f = records.map f) : records'.map (g ∘ f) = records.map (g ∘ f) := by
  rw [← map_map, ← map_map, same]

theorem exists_of_map {α β : Type} {f : α → β} {records records' : List α}
    (same : records'.map f = records.map f) {r : α} (member : r ∈ records') :
    ∃ old ∈ records, f old = f r := by
  have mapped : f r ∈ records.map f := same ▸ mem_map_of_mem member
  exact mem_map.mp mapped

namespace SameShape

variable (w : TopologyWrapper)

theorem refl : SameShape w w :=
  ⟨rfl, rfl, rfl, rfl, rfl, rfl, rfl, rfl, rfl⟩

theorem modifyNode (i : Nat) (f : Node → Node)
    (keeps : ∀ node, w.topology.nodes[i]? = some node → (f node).shape = node.shape) :
    SameShape w (w.modifyNode i f) :=
  ⟨map_modify_of_keeps Node.shape _ i f keeps, rfl, rfl, rfl, rfl, rfl, rfl, rfl, rfl⟩

theorem modifyLink (i : Nat) (f : Link → Link)
    (keeps : ∀ link, (f link).shape = link.shape) : SameShape w (w.modifyLink i f) :=
  ⟨rfl, map_modify_of_keeps Link.shape _ i f fun link _ => keeps link, rfl, rfl, rfl, rfl, rfl, rfl, rfl⟩

theorem modifySite (i : Nat) (f : Site → Site)
    (keeps : ∀ site, (f site).name = site.name) : SameShape w (w.modifySite i f) :=
  ⟨rfl, rfl, map_modify_of_keeps Site.name _ i f fun site _ => keeps site, rfl, rfl, rfl, rfl, rfl, rfl⟩

theorem site {w w' : TopologyWrapper} (same : SameShape w w') {i : Nat} {site : Site}
    (present : w.topology.sites[i]? = some site) :
    ∃ site', w'.topology.sites[i]? = some site' ∧ site'.name = site.name := by
  have mapped : (w'.topology.sites.map Site.name)[i]? = some site.name := by
    rw [same.sites, getElem?_map, present]
    rfl
  rw [getElem?_map] at mapped
  exact Option.map_eq_some_iff.mp mapped

end SameShape

/-! ### Validation -/

variable {nodeName : String} {u : Unit}

theorem validateNodeName_ok (passed : w.validateNodeName nodeName = .ok u) :
    nodeName ≠ "" ∧ w.name2Node nodeName = none := by
  simp only [validateNodeName, reject_bind_eq_ok, reject_eq_ok, not_not] at passed
  exact passed

variable {mac : MacUtils}

theorem standardizeNodeMacs_ok {node std : Node}
    (standardized : standardizeNodeMacs mac node = .ok std) :
    "" ∉ std.wlanMacAddrs ∧
      std = { node with macAddr := std.macAddr, wlanMacAddrs := std.wlanMacAddrs } := by
  simp only [standardizeNodeMacs, except_bind_eq_ok, except_mapM_eq_ok] at standardized
  obtain ⟨_, _, _, collected, final⟩ := standardized
  cases final
  refine ⟨?_, rfl⟩
  intro empty
  obtain ⟨i, hi, atI⟩ := getElem_of_mem empty
  have iLt : i < node.wlanMacAddrs.length := by rw [collected.length_eq]; exact hi
  have related := collected.get iLt hi
  exact mac.standardizeMac_ne_empty _ _ related atI

theorem validateNode_ok {node valid : Node} (passed : w.validateNode node = .ok valid) :
    valid.name ≠ "" ∧ w.name2Node valid.name = none ∧
      (∀ macAddr ∈ valid.macs, w.mac2NodeName macAddr = none) ∧
      (valid.nodeType = .DN ∨ valid.nodeType = .CN) ∧
      valid = { node with nodeType := valid.nodeType, status := valid.status } := by
  simp only [validateNode, except_bind_eq_ok, except_forM_eq_ok, validateNodeMac,
    reject_eq_ok, not_not] at passed
  obtain ⟨_, named, _, unowned, _, typed, final⟩ := passed
  cases final
  obtain ⟨nonempty, fresh⟩ := validateNodeName_ok named
  refine ⟨nonempty, fresh, unowned, ?_, rfl⟩
  generalize (if node.nodeType = NodeType.unset then NodeType.DN else node.nodeType) = nodeType
    at typed
  cases nodeType with
  | unset => simp [NodeType.named] at typed
  | CN => exact .inr rfl
  | DN => exact .inl rfl
  | unknown => simp [NodeType.named] at typed

theorem validateSite_ok {site : Site} (passed : w.validateSite site = .ok u) :
    site.name ≠ "" ∧ w.name2Site site.name = none := by
  simp only [validateSite, reject_bind_eq_ok, not_not] at passed
  exact ⟨passed.1, passed.2.1⟩

/-- A link that refers to nodes of the topology and is oriented and named canonically. -/
structure LinkWellFormed (w : TopologyWrapper) (link : Link) : Prop where
  aNode : w.getNode link.aNodeName ≠ none
  zNode : w.getNode link.zNodeName ≠ none
  notBothCn : ¬ (w.nodeTypeOf link.aNodeName = some .CN ∧ w.nodeTypeOf link.zNodeName = some .CN)
  wired : link.linkType ≠ .WIRELESS → link.aNodeMac = "" ∧ link.zNodeMac = ""
  ordered : link.aNodeName < link.zNodeName
  named : link.name = buildLinkName link.aNodeName link.zNodeName

structure LinkMacsOwned (w : TopologyWrapper) (link : Link) : Prop where
  aMac : link.aNodeMac ≠ "" → w.mac2NodeName link.aNodeMac = some link.aNodeName
  zMac : link.zNodeMac ≠ "" → w.mac2NodeName link.zNodeMac = some link.zNodeName

/-- What `validateLink` establishes about the link it returns, apart from the link limits. -/
structure LinkChecked (w : TopologyWrapper) (link : Link) : Prop where
  wellFormed : LinkWellFormed w link
  macsOwned : LinkMacsOwned w link
  fresh : w.name2Link link.name = none

variable {link : Link}

theorem LinkWellFormed.frame (wellFormed : LinkWellFormed w link)
    (frame : LinkFrame w w') : LinkWellFormed w' link := by
  obtain ⟨_, _, _, wired, ordered, named⟩ := wellFormed
  refine ⟨?_, ?_, ?_, wired, ordered, named⟩ <;> simpa only [nodeTypeOf, frame.getNode]

theorem LinkMacsOwned.frame (owned : LinkMacsOwned w link) (frame : LinkFrame w w') :
    LinkMacsOwned w' link := by
  refine ⟨?_, ?_⟩ <;> rw [frame.mac2NodeName]
  · exact owned.aMac
  · exact owned.zMac

theorem validateLinkMac_ok {side linkMac nodeName : String}
    (passed : w.validateLinkMac side linkMac nodeName = .ok u) :
    linkMac ≠ "" → w.mac2NodeName linkMac = some nodeName := by
  intro nonempty
  unfold validateLinkMac at passed
  rw [if_neg nonempty] at passed
  split at passed
  · cases passed
  · next _ found =>
    simp only [reject_eq_ok, not_not] at passed
    rw [found, passed]

theorem validateLinkType_ok {typed : Link} (passed : validateLinkType link = .ok typed) :
    (typed.linkType ≠ .WIRELESS → typed.aNodeMac = "" ∧ typed.zNodeMac = "") ∧
      typed.aNodeName = link.aNodeName ∧ typed.zNodeName = link.zNodeName := by
  unfold validateLinkType at passed
  split at passed
  · next wireless =>
    cases passed
    exact ⟨fun other => absurd wireless other, rfl, rfl⟩
  · cases passed
    exact ⟨fun _ => ⟨rfl, rfl⟩, rfl, rfl⟩
  · cases passed

theorem validateLinkFields_ok {valid : Link} (passed : w.validateLinkFields link = .ok valid) :
    LinkChecked w valid ∧ valid.aNodeName = link.aNodeName ∧ valid.zNodeName = link.zNodeName := by
  simp only [validateLinkFields, except_bind_eq_ok, reject_eq_ok] at passed
  obtain ⟨_, aNode, _, zNode, _, notBothCn, _, isTyped, _, aMac, _, zMac, _, ordered, _, _, _,
    fresh, final⟩ := passed
  cases final
  obtain ⟨wired, sameA, sameZ⟩ := validateLinkType_ok isTyped
  rw [← sameA] at aNode
  rw [← sameZ] at zNode
  rw [← sameA, ← sameZ] at notBothCn
  exact ⟨⟨⟨aNode, zNode, notBothCn, wired, not_le.mp ordered, rfl⟩,
    ⟨validateLinkMac_ok aMac, validateLinkMac_ok zMac⟩, by simpa using fresh⟩, sameA, sameZ⟩

theorem validateLink_ok {valid : Link} (passed : w.validateLink link = .ok valid) :
    LinkChecked w valid ∧ w.validateMaxLinks valid = .ok () := by
  simp only [validateLink, except_bind_eq_ok] at passed
  obtain ⟨_, fields, _, limits, final⟩ := passed
  cases final
  exact ⟨(validateLinkFields_ok fields).1, limits⟩

/-! ### Links -/

theorem addLink_ok {newLink : Link} (run : (addLink mac newLink).run w = .ok link w') :
    LinkChecked w link ∧ w.validateMaxLinks link = .ok () ∧ w' = w.pushLink link := by
  simp only [addLink, check_bind_eq_ok] at run
  obtain ⟨_, _, _, validated, run⟩ := run
  cases run
  obtain ⟨checked, limits⟩ := validateLink_ok validated
  exact ⟨checked, limits, rfl⟩

variable {force : Bool} {aNodeName zNodeName : String}

theorem delLink_ok (run : (delLink aNodeName zNodeName force).run w = .ok () w') :
    ∃ i, w.name2Link (buildLinkName aNodeName zNodeName) = some i ∧
      w' = w.eraseLink (buildLinkName aNodeName zNodeName) i := by
  simp only [delLink, check_bind_eq_ok, Prod.exists, linkRef_eq_ok] at run
  obtain ⟨i, _, ⟨stored, _⟩, _, _, run⟩ := run
  cases run
  exact ⟨i, stored, rfl⟩

theorem delLink_frame
    (run : (delLink aNodeName zNodeName force).run w = .ok () w') : LinkFrame w w' := by
  obtain ⟨i, _, rfl⟩ := delLink_ok run
  exact LinkFrame.eraseLink w _ i

theorem delLinks_frame {links : List Link}
    (run : (delLinks links force).run w = .ok () w') :
    LinkFrame w w' :=
  forM_invariant (LinkFrame w) (LinkFrame.refl w) run
    fun _ _ _ _ soFar step => soFar.trans (delLink_frame step)

/-- What `createSiteLinks` can do: enter empty association sets and add checked links. -/
inductive SiteLinked (w : TopologyWrapper) : TopologyWrapper → Prop where
  | refl : SiteLinked w w
  | touch {v : TopologyWrapper} (siteName : String) (before : SiteLinked w v) :
      SiteLinked w (v.touchSite siteName)
  | add {v : TopologyWrapper} {link : Link} (before : SiteLinked w v)
      (checked : LinkChecked v link) (limits : v.validateMaxLinks link = .ok ()) :
      SiteLinked w (v.pushLink link)

theorem createSiteLink_ok {aNode : Node} {assocNodeName : String} {w v v' : TopologyWrapper}
    (soFar : SiteLinked w v) (run : (createSiteLink mac aNode assocNodeName).run v = .ok () v') :
    SiteLinked w v' := by
  unfold createSiteLink at run
  split at run
  · cases run
    exact soFar
  simp only [check_bind_eq_ok] at run
  obtain ⟨_, _, run⟩ := run
  split at run
  · cases run
    exact soFar
  rw [bind_eq_ok] at run
  obtain ⟨_, _, got, run⟩ := run
  cases got
  split at run
  · cases run
    exact soFar
  rw [bind_eq_ok] at run
  obtain ⟨_, _, adding, run⟩ := run
  cases run
  obtain ⟨checked, limits, rfl⟩ := addLink_ok adding
  exact .add soFar checked limits

variable {order : SetOrder}

theorem createSiteLinks_ok {validate : Bool} {nodes : List Node}
    (run : (createSiteLinks mac order validate nodes).run w = .ok () w') : SiteLinked w w' := by
  unfold createSiteLinks at run
  split at run
  · cases run
    exact .refl
  rw [bind_eq_ok] at run
  obtain ⟨_, _, got, run⟩ := run
  cases got
  refine forM_invariant (SiteLinked w) .refl run ?_
  intro node _ v _ soFar iteration
  simp only [bind_eq_ok] at iteration
  obtain ⟨_, _, touched, _, _, got, inner⟩ := iteration
  cases touched
  cases got
  exact forM_invariant (SiteLinked w) (.touch node.siteName soFar) inner
    fun _ _ _ _ before step => createSiteLink_ok before step

/-! ### Nodes -/

/-- What the checks of `addNode` and of the node loop of `populateMaps` establish. -/
structure NodeChecked (w : TopologyWrapper) (node : Node) : Prop where
  named : node.name ≠ ""
  fresh : w.name2Node node.name = none
  unowned : ∀ macAddr ∈ node.macs, w.mac2NodeName macAddr = none
  typed : node.nodeType = .DN ∨ node.nodeType = .CN
  wlanMacs : "" ∉ node.wlanMacAddrs
  site : w.name2Site node.siteName ≠ none
  room : (w.assocNodes node.siteName).card < kMaxNumOfNodesPerSite

/-- A checked node entered into the vector, the two indices and the set of its site. -/
def TopologyWrapper.insertNode (w : TopologyWrapper) (node : Node) : TopologyWrapper :=
  { (w.associate node.siteName node.name).withNodes (w.topology.nodes ++ [node]) with
    name2Node := update w.name2Node node.name (some w.topology.nodes.length)
    mac2NodeName := indexMacs w.mac2NodeName node.macs node.name }

variable {siteName : String}

theorem validateNodeSite_ok (passed : validateNodeSite nodeName siteName w = .ok u) :
    w.name2Site siteName ≠ none ∧ (w.assocNodes siteName).card < kMaxNumOfNodesPerSite := by
  simp only [validateNodeSite, reject_bind_eq_ok, reject_eq_ok, not_le] at passed
  exact ⟨passed.2.1, passed.2.2⟩

theorem nodeChecked_of_validated {given std node : Node}
    (standardized : standardizeNodeMacs mac given = .ok std)
    (validated : w.validateNode std = .ok node)
    (placed : validateNodeSite node.name node.siteName w = .ok u) : NodeChecked w node := by
  obtain ⟨named, fresh, unowned, typed, sameFields⟩ := validateNode_ok validated
  obtain ⟨wlanMacs, _⟩ := standardizeNodeMacs_ok standardized
  obtain ⟨site, room⟩ := validateNodeSite_ok placed
  refine ⟨named, fresh, unowned, typed, ?_, site, room⟩
  rw [sameFields]
  exact wlanMacs

variable {node : Node}

/-- With an exact node index, appending and refreshing all pointers is entering one position. -/
theorem pushNode_eq (exact : w.ExactNodes)
    (fresh : w.name2Node node.name = none) :
    w.pushNode node = { w.withNodes (w.topology.nodes ++ [node]) with
      name2Node := update w.name2Node node.name (some w.topology.nodes.length) } := by
  rw [← (exact.push fresh).unique (exact.snoc fresh)]
  rfl

variable {newNode : Node}

section

variable (exact : w.ExactNodes)
include exact

/-- `addNode` enters a checked node, and then its links inside the site if the option is set. -/
theorem addNode_stages (run : (addNode mac order newNode).run w = .ok node w') :
    NodeChecked w node ∧ (w' = w.insertNode node ∨
      (createSiteLinks mac order true [node]).run (w.insertNode node) = .ok () w') := by
  simp only [addNode, plugNodeToSite, bind_assoc, check_bind_eq_ok] at run
  obtain ⟨_, standardized, valid, validated, _, placed, run⟩ := run
  have checked := nodeChecked_of_validated standardized validated placed
  have inserted : pushNode { w.associate valid.siteName valid.name with
        mac2NodeName := indexMacs w.mac2NodeName valid.macs valid.name } valid =
      w.insertNode valid := pushNode_eq exact checked.fresh
  simp only [bind_eq_ok] at run
  obtain ⟨_, _, associated, _, _, indexed, _, _, pushed, _, _, got, run⟩ := run
  cases associated
  cases indexed
  cases pushed
  cases got
  split at run
  · rw [bind_eq_ok] at run
    obtain ⟨_, _, linked, final⟩ := run
    cases final
    refine ⟨checked, .inr ?_⟩
    rw [← inserted]
    exact linked
  · cases run
    exact ⟨checked, .inl inserted⟩

theorem addNode_ok (run : (addNode mac order newNode).run w = .ok node w') :
    NodeChecked w node ∧ SiteLinked (w.insertNode node) w' := by
  obtain ⟨checked, outcome⟩ := addNode_stages exact run
  rcases outcome with rfl | linked
  · exact ⟨checked, .refl⟩
  · exact ⟨checked, createSiteLinks_ok linked⟩

end

/-- `delNode` before its link loop: the MACs, the site entry, the record and the index entry are
gone. -/
def TopologyWrapper.removeNode (w : TopologyWrapper) (i : Nat) (node : Node) : TopologyWrapper :=
  eraseNode
    { (if node.siteName = "" then w else w.dissociate node.siteName node.name) with
      mac2NodeName := unindexMacs w.mac2NodeName node.macs } node.name i

section RemoveNode

variable (w : TopologyWrapper) (i : Nat) (node : Node)

@[simp] theorem removeNode_nodes :
    (w.removeNode i node).topology.nodes = w.topology.nodes.eraseIdx i := by
  unfold removeNode
  split <;> rfl

@[simp] theorem removeNode_links : (w.removeNode i node).topology.links = w.topology.links := by
  unfold removeNode
  split <;> rfl

@[simp] theorem removeNode_sites : (w.removeNode i node).topology.sites = w.topology.sites := by
  unfold removeNode
  split <;> rfl

@[simp] theorem removeNode_name2Node :
    (w.removeNode i node).name2Node = KeyIndex.refresh Node.name (w.topology.nodes.eraseIdx i)
      (update w.name2Node node.name none) := by
  unfold removeNode
  split <;> rfl

@[simp] theorem removeNode_name2Link : (w.removeNode i node).name2Link = w.name2Link := by
  unfold removeNode
  split <;> rfl

@[simp] theorem removeNode_name2Site : (w.removeNode i node).name2Site = w.name2Site := by
  unfold removeNode
  split <;> rfl

@[simp] theorem removeNode_mac2NodeName :
    (w.removeNode i node).mac2NodeName = unindexMacs w.mac2NodeName node.macs := by
  unfold removeNode
  split <;> rfl

end RemoveNode

theorem unplugNodeFromSite_ok (run : (unplugNodeFromSite nodeName).run w = .ok () w') :
    ∃ i node, w.name2Node nodeName = some i ∧ w.topology.nodes[i]? = some node ∧ w' = modifyNode
        (if node.siteName = "" then w else w.dissociate node.siteName nodeName) i
        (fun node => { node with siteName := "" }) := by
  simp only [unplugNodeFromSite, check_bind_eq_ok, Prod.exists, nodeRef_eq_ok] at run
  obtain ⟨i, node, ⟨stored, present⟩, run⟩ := run
  cases run
  exact ⟨i, node, stored, present, rfl⟩

theorem eraseNode_modifyNode (w : TopologyWrapper) (nodeName : String) (i : Nat)
    (f : Node → Node) : (w.modifyNode i f).eraseNode nodeName i = w.eraseNode nodeName i := by
  simp only [eraseNode, modifyNode, withNodes, eraseIdx_modify_of_eq]

variable {i : Nat}

theorem unplugged_eraseNode {w t : TopologyWrapper} (stored : w.name2Node node.name = some i)
    (present : w.topology.nodes[i]? = some node) (unplugged : (unplugNodeFromSite node.name).run
      { w with mac2NodeName := unindexMacs w.mac2NodeName node.macs } = .ok () t) :
    t.eraseNode node.name i = w.removeNode i node := by
  obtain ⟨j, _, storedAgain, presentAgain, rfl⟩ := unplugNodeFromSite_ok unplugged
  cases storedAgain.symm.trans stored
  cases presentAgain.symm.trans present
  rw [eraseNode_modifyNode]
  unfold removeNode
  split
  · rfl
  · rfl

theorem delNode_ok (exact : w.ExactNodes)
    (run : (delNode nodeName force).run w = .ok () w') :
    ∃ i node, w.name2Node nodeName = some i ∧ w.topology.nodes[i]? = some node ∧
      node.name = nodeName ∧
      (delLinks (w.getLinksByNodeName nodeName) true).run (w.removeNode i node) = .ok () w' := by
  simp only [delNode, check_bind_eq_ok, Prod.exists, nodeRef_eq_ok] at run
  obtain ⟨i, node, ⟨stored, present⟩, run⟩ := run
  have named : node.name = nodeName := exact.sound.key_eq stored present
  subst named
  refine ⟨i, node, stored, present, rfl, ?_⟩
  simp only [check_bind_eq_ok, get_bind_eq_ok, modify_bind_eq_ok] at run
  obtain ⟨_, _, _, _, run⟩ := run
  rw [bind_eq_ok] at run
  obtain ⟨_, _, unplugged, run⟩ := run
  rw [modify_bind_eq_ok, unplugged_eraseNode stored present unplugged] at run
  exact run

theorem editNode_ok (run : (editNode nodeName newNode).run w = .ok () w') :
    ∃ i node, w.name2Node nodeName = some i ∧ w.topology.nodes[i]? = some node ∧
      (newNode.name ≠ nodeName → newNode.name ≠ "" ∧ w.name2Node newNode.name = none) ∧
      (hasNewType node newNode → w.getLinksByNodeName nodeName = []) ∧
      w' = if newNode.name = nodeName then w.modifyNode i (editProps newNode)
        else renameNode nodeName newNode.name i node (w.modifyNode i (editProps newNode)) := by
  simp only [editNode, check_bind_eq_ok, Prod.exists, nodeRef_eq_ok, reject_eq_ok] at run
  obtain ⟨i, node, ⟨stored, present⟩, _, freshName, _, typeFixed, _, _, run⟩ := run
  cases run
  refine ⟨i, node, stored, present, ?_, ?_, rfl⟩
  · intro renamed
    rw [if_neg renamed] at freshName
    exact validateNodeName_ok freshName
  · intro retyped
    by_contra hasLinks
    exact typeFixed ⟨retyped, hasLinks⟩

theorem setNodePrefix_ok {nodePrefix : Option String}
    (run : (setNodePrefix nodeName nodePrefix).run w = .ok () w') :
    ∃ i, w.name2Node nodeName = some i ∧
      w' = w.modifyNode i fun n => { n with nodePrefix := nodePrefix } := by
  simp only [setNodePrefix, check_bind_eq_ok, Prod.exists, nodeRef_eq_ok] at run
  obtain ⟨i, _, ⟨stored, _⟩, run⟩ := run
  cases run
  exact ⟨i, stored, rfl⟩

theorem modifyNode_present {f : Node → Node} (present : w.topology.nodes[i]? = some node) :
    (w.modifyNode i f).topology.nodes[i]? = some (f node) := by
  simp [modifyNode, withNodes, present]

/-- Without a new name and a new type, `editNode` changes attributes only. -/
theorem editProps_shape (sameType : ¬ hasNewType node newNode) :
    (editProps newNode node).shape = node.shape := by
  unfold editProps
  split <;> rfl

@[simp] theorem editProps_name (newNode node : Node) :
    (editProps newNode node).name = node.name := by
  unfold editProps
  split <;> split <;> rfl

@[simp] theorem editProps_keeps (newNode node : Node) :
    (editProps newNode node).siteName = node.siteName ∧
      (editProps newNode node).macAddr = node.macAddr ∧
      (editProps newNode node).wlanMacAddrs = node.wlanMacAddrs ∧
      (editProps newNode node).nodePrefix = node.nodePrefix := by
  unfold editProps
  split <;> split <;> exact ⟨rfl, rfl, rfl, rfl⟩

variable {names : Finset String}

theorem assocNodes_of_update
    (entered : w'.site2AssocNodes = update w.site2AssocNodes siteName (some names))
    (other : String) :
    w'.assocNodes other = if other = siteName then names else w.assocNodes other := by
  unfold assocNodes
  rw [entered, update_apply]
  split
  · rfl
  · rfl

/-! ### Renaming a node -/

section RenameNode

variable (nodeName newName : String) (i : Nat) (node : Node) (w : TopologyWrapper)

@[simp] theorem renameNode_nodes :
    (renameNode nodeName newName i node w).topology.nodes =
      w.topology.nodes.modify i fun n => { n with name := newName } := by
  exact congrArg (fun nodes => nodes.modify i fun n : Node => { n with name := newName })
    (LinkFrame.renameLinks nodeName newName _ _).nodes

@[simp] theorem renameNode_sites :
    (renameNode nodeName newName i node w).topology.sites = w.topology.sites :=
  (LinkFrame.renameLinks nodeName newName _ _).sites

@[simp] theorem renameNode_name2Node :
    (renameNode nodeName newName i node w).name2Node =
      update (update w.name2Node newName (some i)) nodeName none := by
  exact congrArg (fun index => update (update index newName (some i)) nodeName none)
    (LinkFrame.renameLinks nodeName newName _ _).name2Node

@[simp] theorem renameNode_name2Site :
    (renameNode nodeName newName i node w).name2Site = w.name2Site :=
  (LinkFrame.renameLinks nodeName newName _ _).name2Site

@[simp] theorem renameNode_mac2NodeName :
    (renameNode nodeName newName i node w).mac2NodeName =
      (node.macAddr :: node.wlanMacAddrs).foldl (renameMacOwner newName) w.mac2NodeName :=
  (LinkFrame.renameLinks nodeName newName _ _).mac2NodeName

theorem renameNode_assocNodes
    (associated : w.site2AssocNodes node.siteName = some names) (siteName : String) :
    (renameNode nodeName newName i node w).assocNodes siteName =
      if siteName = node.siteName then insert newName (names.erase nodeName)
      else w.assocNodes siteName := by
  have frame := (LinkFrame.renameLinks nodeName newName (w.getLinksByNodeName nodeName) { w with
      mac2NodeName := (node.macAddr :: node.wlanMacAddrs).foldl (renameMacOwner newName)
        w.mac2NodeName
      site2AssocNodes := update w.site2AssocNodes node.siteName
        (some (insert newName (names.erase nodeName))) }).site2AssocNodes
  have unfolded : (renameNode nodeName newName i node w).site2AssocNodes =
      update w.site2AssocNodes node.siteName (some (insert newName (names.erase nodeName))) := by
    unfold renameNode
    rw [associated]
    exact frame
  exact assocNodes_of_update unfolded siteName

end RenameNode

/-! ### MAC addresses of nodes -/

/-- The node `setNodeMacByName` leaves behind. -/
def withMacAddr (oldMac newMac : String) (node : Node) : Node :=
  { node with wlanMacAddrs := node.wlanMacAddrs.filter (· ≠ oldMac), macAddr := newMac }

/-- The state `setNodeMacByName` leaves: node and index name the new MAC. -/
def TopologyWrapper.replaceMacAddr (w : TopologyWrapper) (nodeName : String) (i : Nat)
    (oldMac newMac : String) : TopologyWrapper :=
  { w.modifyNode i (withMacAddr oldMac newMac) with
    mac2NodeName := update (update w.mac2NodeName oldMac none) newMac
      (some nodeName) }

theorem setNodeMacByName_ok {nodeName macAddr : String}
    (run : (setNodeMacByName mac nodeName macAddr force).run w = .ok () w') :
    ∃ i node newMac, w.name2Node nodeName = some i ∧ w.topology.nodes[i]? = some node ∧
      newMac ≠ "" ∧ node.macAddr ≠ newMac ∧
      (w.mac2NodeName newMac = none ∨ w.mac2NodeName newMac = some nodeName) ∧
      w' = w.replaceMacAddr nodeName i node.macAddr newMac := by
  simp only [setNodeMacByName, check_bind_eq_ok, Prod.exists, nodeRef_eq_ok, reject_eq_ok] at run
  obtain ⟨newMac, standardized, i, node, ⟨stored, present⟩, _, changed, _, free, _, _, run⟩ := run
  cases run
  refine ⟨i, node, newMac, stored, present, mac.standardizeMac_ne_empty _ _ standardized, changed,
    ?_, rfl⟩
  split at free
  · exact .inl (by assumption)
  · next _ owned =>
    simp only [reject_eq_ok, not_not] at free
    exact .inr (by rw [owned, free])

/-- What `updateLinksMacs` writes into one link. -/
def replaceLinkMac (nodeName oldMac newMac : String) (link : Link) : Link :=
  if link.linkType = .WIRELESS ∧ usesMacAt link nodeName oldMac
  then replaceMac nodeName newMac link else link

section ReplaceLinkMac

variable (nodeName oldMac newMac : String) (link : Link)

@[simp] theorem replaceLinkMac_name :
    (replaceLinkMac nodeName oldMac newMac link).name = link.name := by
  unfold replaceLinkMac replaceMac
  split
  · split <;> rfl
  · rfl

@[simp] theorem replaceLinkMac_linkType :
    (replaceLinkMac nodeName oldMac newMac link).linkType = link.linkType := by
  unfold replaceLinkMac replaceMac
  split
  · split <;> rfl
  · rfl

@[simp] theorem replaceLinkMac_keeps :
    (replaceLinkMac nodeName oldMac newMac link).aNodeName = link.aNodeName ∧
      (replaceLinkMac nodeName oldMac newMac link).zNodeName = link.zNodeName ∧
      (replaceLinkMac nodeName oldMac newMac link).isBackupCnLink = link.isBackupCnLink := by
  unfold replaceLinkMac replaceMac
  split
  · split <;> exact ⟨rfl, rfl, rfl⟩
  · exact ⟨rfl, rfl, rfl⟩

end ReplaceLinkMac

/-- The node `changeNodeWlanMac` leaves behind. -/
def withWlanMac (oldMac newMac : String) (node : Node) : Node :=
  { node with wlanMacAddrs := node.wlanMacAddrs.filter (· ≠ oldMac) ++ [newMac] }

/-- The state `changeNodeWlanMac` leaves: links, node and index name the new MAC. -/
def TopologyWrapper.replaceWlanMac (w : TopologyWrapper) (nodeName : String) (i : Nat)
    (oldMac newMac : String) : TopologyWrapper :=
  { (w.withLinks (w.topology.links.map (replaceLinkMac nodeName oldMac newMac))).modifyNode i
      (withWlanMac oldMac newMac) with
    mac2NodeName := update (update w.mac2NodeName oldMac none) newMac
      (some nodeName) }

theorem changeNodeWlanMac_ok {nodeName oldMacAddr newMacAddr : String}
    (run : (changeNodeWlanMac mac nodeName oldMacAddr newMacAddr force).run w = .ok () w') :
    ∃ i node oldMac newMac, mac.standardizeMac oldMacAddr = .ok oldMac ∧
      mac.standardizeMac newMacAddr = .ok newMac ∧
      w.name2Node nodeName = some i ∧ w.topology.nodes[i]? = some node ∧
      oldMac ≠ newMac ∧ oldMac ∈ node.wlanMacAddrs ∧ w.mac2NodeName newMac = none ∧
      w' = w.replaceWlanMac nodeName i oldMac newMac := by
  simp only [changeNodeWlanMac, updateLinksMacs, bind_assoc, check_bind_eq_ok, Prod.exists,
    nodeRef_eq_ok, reject_eq_ok, not_not] at run
  obtain ⟨oldMac, standardizedOld, newMac, standardizedNew, i, node, ⟨stored, present⟩, _, changed,
    _, owned, _, free, _, _, run⟩ := run
  cases run
  refine ⟨i, node, oldMac, newMac, standardizedOld, standardizedNew, stored, present, changed,
    owned, ?_, rfl⟩
  split at free
  · assumption
  · cases free

variable {macs : List String}

theorem collectNewMacs_ok {wlanMacs newMacs : List String}
    (collected : collectNewMacs mac w newMacs wlanMacs = .ok macs)
    (before : ∀ m ∈ newMacs, m ≠ "" ∧ w.mac2NodeName m = none) :
    ∀ m ∈ macs, m ≠ "" ∧ w.mac2NodeName m = none := by
  induction wlanMacs generalizing newMacs with
  | nil =>
    cases collected
    exact before
  | cons _ _ ih =>
    rw [collectNewMacs, except_bind_eq_ok] at collected
    obtain ⟨_, standardized, collected⟩ := collected
    split at collected
    · cases collected
    · next free =>
      apply ih collected
      intro m member
      split at member
      · exact before m member
      · rcases mem_append.mp member with old | new
        · exact before m old
        · rw [mem_singleton.mp new]
          exact ⟨mac.standardizeMac_ne_empty _ _ standardized, free⟩

/-- The state `addNodeWlanMacs` leaves: node and index know the new MACs. -/
def TopologyWrapper.appendMacs (w : TopologyWrapper) (nodeName : String) (i : Nat)
    (newMacs : List String) : TopologyWrapper :=
  { w.modifyNode i (fun n => { n with wlanMacAddrs := n.wlanMacAddrs ++ newMacs }) with
    mac2NodeName := indexMacs w.mac2NodeName newMacs nodeName }

variable {wlanMacAddrs : List String}

theorem addNodeWlanMacs_ok (run : (addNodeWlanMacs mac nodeName wlanMacAddrs).run w = .ok () w') :
    ∃ i newMacs, w.name2Node nodeName = some i ∧ (∀ m ∈ newMacs, m ≠ "" ∧ w.mac2NodeName m = none) ∧
      w' = w.appendMacs nodeName i newMacs := by
  simp only [addNodeWlanMacs, check_bind_eq_ok, Prod.exists, nodeRef_eq_ok] at run
  obtain ⟨i, _, ⟨stored, _⟩, newMacs, collected, run⟩ := run
  cases run
  exact ⟨i, newMacs, stored, collectNewMacs_ok collected (by simp), rfl⟩

variable {nodeLinks : List Link}

theorem validateMacsToDelete_ok {wlanMac macAddr : String}
    (passed : validateMacsToDelete mac w nodeName nodeLinks force wlanMac = .ok macAddr) :
    mac.standardizeMac wlanMac = .ok macAddr ∧ w.mac2NodeName macAddr = some nodeName ∧
      ∀ link ∈ nodeLinks, (link.aNodeMac = macAddr ∨ link.zNodeMac = macAddr) →
        ¬ (force = false ∧ link.linkType = .WIRELESS ∧ link.isAlive = true) := by
  unfold validateMacsToDelete at passed
  rw [except_bind_eq_ok] at passed
  obtain ⟨_, standardized, passed⟩ := passed
  split at passed
  · cases passed
  · next _ owned =>
    simp only [except_bind_eq_ok, reject_eq_ok, not_not, except_forM_eq_ok] at passed
    obtain ⟨_, rfl, _, down, final⟩ := passed
    cases final
    refine ⟨standardized, owned, ?_⟩
    intro link member uses blocked
    exact down link member ⟨blocked.1, blocked.2.1, blocked.2.2, uses⟩

def dropWlanMacs (macs : List String) (node : Node) : Node :=
  { node with wlanMacAddrs := macs.foldl List.erase node.wlanMacAddrs }

/-- The node and the MAC index after the deletion loop of `deleteNodeWlanMacs`. -/
def TopologyWrapper.dropMacs (w : TopologyWrapper) (i : Nat) (macs : List String) :
    TopologyWrapper :=
  { w.modifyNode i (dropWlanMacs macs) with mac2NodeName := unindexMacs w.mac2NodeName macs }

theorem deleteNodeWlanMacs_ok
    (run : (deleteNodeWlanMacs mac nodeName wlanMacAddrs force).run w = .ok () w') :
    ∃ i macs, w.name2Node nodeName = some i ∧ wlanMacAddrs.mapM mac.standardizeMac = .ok macs ∧
      (∀ macAddr ∈ macs, w.mac2NodeName macAddr = some nodeName) ∧
      (forM macs (deleteNodeWlanMac i (w.getLinksByNodeName nodeName) force)).run w = .ok () w' := by
  simp only [deleteNodeWlanMacs, check_bind_eq_ok, Prod.exists, nodeRef_eq_ok,
    get_bind_eq_ok] at run
  obtain ⟨i, _, ⟨stored, _⟩, macs, validated, run⟩ := run
  refine ⟨i, macs, stored, ?_, ?_, run⟩
  · apply except_mapM_eq_ok.mpr
    exact (except_mapM_eq_ok.mp validated).imp fun _ _ passed => (validateMacsToDelete_ok passed).1
  · exact except_mapM_forall validated fun _ _ passed => (validateMacsToDelete_ok passed).2.1

variable {v v' : TopologyWrapper}

theorem LinkFrame.dropMacs (frame : LinkFrame v v') (i : Nat)
    (macs : List String) : LinkFrame (v.dropMacs i macs) (v'.dropMacs i macs) := by
  refine { frame with nodes := ?_, mac2NodeName := ?_ }
  · show v'.topology.nodes.modify i _ = v.topology.nodes.modify i _
    rw [frame.nodes]
  · show unindexMacs v'.mac2NodeName macs = unindexMacs v.mac2NodeName macs
    rw [frame.mac2NodeName]

theorem dropMacs_cons (w : TopologyWrapper) (i : Nat) (macAddr : String) (macs : List String) :
    (w.dropMacs i [macAddr]).dropMacs i macs = w.dropMacs i (macAddr :: macs) := by
  simp only [dropMacs, modifyNode, withNodes, modify_modify_eq]
  rfl

def carries (macAddr : String) (link : Link) : Prop :=
  link.aNodeMac = macAddr ∨ link.zNodeMac = macAddr

instance (macAddr : String) : DecidablePred (carries macAddr) :=
  fun _ => inferInstanceAs (Decidable (_ ∨ _))

theorem deleteNodeWlanMac_eq (i : Nat) (nodeLinks : List Link) (force : Bool) (macAddr : String)
    (v : TopologyWrapper) :
    (deleteNodeWlanMac i nodeLinks force macAddr).run v =
      (delLinks (nodeLinks.filter (carries macAddr)) force).run (v.dropMacs i [macAddr]) := by
  rw [delLinks, ← forM_ite (carries macAddr)]
  rfl

/-- The links that `deleteNodeWlanMacs` deletes for a list of MACs, once for every MAC they carry.
-/
def selectedLinks (nodeLinks : List Link) (macs : List String) : List Link :=
  macs.flatMap fun macAddr => nodeLinks.filter (carries macAddr)

theorem mem_selectedLinks : link ∈ selectedLinks nodeLinks macs ↔
      ∃ macAddr ∈ macs, link ∈ nodeLinks ∧ carries macAddr link := by
  simp [selectedLinks]

/-- Deleting links does not look at the nodes or the MAC index. -/
theorem delLinks_dropMacs (snapshot : List Link) (i : Nat) (macs : List String) :
    Commutes (·.dropMacs i macs) (delLinks snapshot force) := by
  refine .forM ?_ snapshot
  intro link
  exact .check_bind (fun _ => rfl) fun _ => .check_bind (fun _ => rfl) fun _ =>
    .modify fun _ => rfl

/-- The loop of `deleteNodeWlanMacs` deletes the selected links one after the other. -/
theorem deleteMacs_run (nodeLinks : List Link) (force : Bool) (i : Nat) (macs : List String)
    (v : TopologyWrapper) :
    match (delLinks (selectedLinks nodeLinks macs) force).run v with
    | .ok _ u => (forM macs (deleteNodeWlanMac i nodeLinks force)).run v = .ok () (u.dropMacs i macs)
    | .error e _ => ∃ t, (forM macs (deleteNodeWlanMac i nodeLinks force)).run v = .error e t := by
  induction macs generalizing v with
  | nil =>
    congr 1
    exact congrArg v.withNodes (modify_id _ _).symm
  | cons macAddr macs ih =>
    have selected : selectedLinks nodeLinks (macAddr :: macs) =
        nodeLinks.filter (carries macAddr) ++ selectedLinks nodeLinks macs := flatMap_cons
    rw [selected, delLinks, forM_append, forM_cons, run_bind, run_bind, deleteNodeWlanMac_eq,
      delLinks_dropMacs _ i [macAddr] v]
    cases (delLinks (nodeLinks.filter (carries macAddr)) force).run v with
    | error => exact ⟨_, rfl⟩
    | ok _ t =>
      have later := ih (t.dropMacs i [macAddr])
      rw [delLinks_dropMacs _ i [macAddr] t] at later
      revert later
      dsimp only
      cases (delLinks (selectedLinks nodeLinks macs) force).run t with
      | error => exact id
      | ok _ u => exact fun later => later.trans (congrArg _ (dropMacs_cons u i macAddr macs))

theorem deleteMacs_ok (run : (forM macs (deleteNodeWlanMac i nodeLinks force)).run v = .ok () v') :
    ∃ u, (delLinks (selectedLinks nodeLinks macs) force).run v = .ok () u ∧
      v' = u.dropMacs i macs := by
  have both := deleteMacs_run nodeLinks force i macs v
  rw [run] at both
  split at both
  · next u deleting =>
    cases both
    exact ⟨u, deleting, rfl⟩
  · obtain ⟨_, thrown⟩ := both
    cases thrown

/-- The deletion loop of `deleteNodeWlanMacs` changes the node, the MAC index and links only. -/
theorem deleteNodeWlanMacs_frame
    (run : (forM macs (deleteNodeWlanMac i nodeLinks force)).run v = .ok () v') :
    LinkFrame (v.dropMacs i macs) v' := by
  obtain ⟨u, deleting, rfl⟩ := deleteMacs_ok run
  exact (delLinks_frame deleting).dropMacs i macs

/-! ### Sites -/

theorem addSite_ok {newSite : Site} (run : (addSite newSite).run w = .ok () w') :
    newSite.name ≠ "" ∧ w.name2Site newSite.name = none ∧ w' = w.pushSite newSite := by
  unfold addSite at run
  rw [check_bind_eq_ok] at run
  obtain ⟨_, validated, run⟩ := run
  cases run
  obtain ⟨named, fresh⟩ := validateSite_ok validated
  exact ⟨named, fresh, rfl⟩

/-- Only a site without nodes is deleted. -/
theorem delSite_ok (run : (delSite siteName).run w = .ok () w') :
    ∃ i, w.name2Site siteName = some i ∧ w.assocNodes siteName = ∅ ∧
      w' = w.eraseSite siteName i := by
  simp only [delSite, check_bind_eq_ok, Prod.exists, siteRef_eq_ok, reject_eq_ok, not_not] at run
  obtain ⟨i, _, ⟨stored, _⟩, _, unused, run⟩ := run
  cases run
  exact ⟨i, stored, unused, rfl⟩

theorem editSite_ok {newSite : Site} (run : (editSite siteName newSite).run w = .ok () w') :
    ∃ i site v, w.name2Site siteName = some i ∧ w.topology.sites[i]? = some site ∧
      (v = w ∨ v = w.modifySite i fun site => { site with location := newSite.location }) ∧
      (((newSite.name = site.name ∨ newSite.name = "") ∧ w' = v) ∨
        (newSite.name ≠ site.name ∧ newSite.name ≠ "" ∧ w.name2Site newSite.name = none ∧
          w' = renameSite siteName newSite.name i v)) := by
  simp only [editSite, check_bind_eq_ok, Prod.exists, siteRef_eq_ok, reject_eq_ok,
    modify_bind_eq_ok, modify_eq_ok] at run
  obtain ⟨i, site, ⟨stored, present⟩, _, fresh, _, _, _, _, run⟩ := run
  refine ⟨i, site, if newSite.location ≠ site.location ∧ newSite.location ≠ {}
    then w.modifySite i fun site => { site with location := newSite.location } else w,
    stored, present, ?_, ?_⟩
  · split
    · exact .inr rfl
    · exact .inl rfl
  · by_cases renamed : newSite.name ≠ site.name ∧ newSite.name ≠ ""
    · rw [if_pos renamed] at run
      refine .inr ⟨renamed.1, renamed.2, ?_, run⟩
      by_contra taken
      exact fresh ⟨renamed, taken⟩
    · rw [if_neg renamed] at run
      refine .inl ⟨?_, run⟩
      rw [not_and_or, not_not, not_not] at renamed
      exact renamed

/-! ### Reported state -/

variable {found : Bool}

/-- The setters of reported state write to a record that they look up, if it is there. -/
theorem lookup_shape {look : TopologyWrapper → Option Nat}
    {write : Nat → TopologyWrapper → TopologyWrapper}
    (run : (do
      let w ← get
      match look w with
      | none => return false
      | some i =>
        modify (write i)
        return true : TopologyM Bool).run w = .ok found w')
    (keeps : ∀ i, SameShape w (write i w)) : SameShape w w' := by
  rw [get_bind_eq_ok] at run
  split at run
  · cases run
    exact SameShape.refl w
  · cases run
    exact keeps _

end Terragraph
