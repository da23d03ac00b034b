/-
Module: Terragraph.Topology.Atomicity
Purpose: What a mutator that throws leaves behind, and what mutators do to the node records.
Trusted boundary: none
Main exports: failure_atomic_iff, Inherits
-/
import Terragraph.Topology.Links
import Terragraph.Topology.Macs

namespace Terragraph

open Guarded List TopologyWrapper

/-!
A mutator that makes all its checks before its first change is atomic whatever the state is.  The
other three call throwing functions after a change, and are atomic because those calls cannot fail
in a consistent state: the wired links that `addNode` creates are always valid, and the links that
`delNode` and `deleteNodeWlanMacs` delete are there, unless the latter has deleted them already.
-/

/-! ### Mutators that check first -/

section CheckFirst

variable (mac : MacUtils) (w : TopologyWrapper)

theorem atomic_addLink (newLink : Link) : Atomic (addLink mac newLink) w := by
  apply Atomic.check_bind
  intro std _
  apply Atomic.check_bind
  intro valid _
  exact NeverFails.atomic (.modify_bind (neverFails_pure valid _))

theorem atomic_delLink (aNodeName zNodeName : String) (force : Bool) :
    Atomic (delLink aNodeName zNodeName force) w := by
  apply Atomic.check_bind
  intro found _
  apply Atomic.check_bind
  intro _ _
  exact (neverFails_modify _ w).atomic

theorem atomic_addSite (newSite : Site) : Atomic (addSite newSite) w := by
  apply Atomic.check_bind
  intro _ _
  exact (neverFails_modify _ w).atomic

theorem atomic_delSite (siteName : String) : Atomic (delSite siteName) w := by
  apply Atomic.check_bind
  intro found _
  apply Atomic.check_bind
  intro _ _
  exact (neverFails_modify _ w).atomic

theorem atomic_editSite (siteName : String) (newSite : Site) :
    Atomic (editSite siteName newSite) w := by
  apply Atomic.check_bind
  intro found _
  apply Atomic.check_bind
  intro _ _
  apply Atomic.check_bind
  intro _ _
  apply Atomic.check_bind
  intro _ _
  exact NeverFails.atomic (.modify_bind (neverFails_modify _ _))

variable (nodeName : String)

theorem atomic_editNode (newNode : Node) :
    Atomic (editNode nodeName newNode) w := by
  apply Atomic.check_bind
  intro found _
  apply Atomic.check_bind
  intro _ _
  apply Atomic.check_bind
  intro _ _
  apply Atomic.check_bind
  intro _ _
  exact NeverFails.atomic (.modify_bind (neverFails_modify _ _))

theorem atomic_setNodeMacByName (macAddr : String) (force : Bool) :
    Atomic (setNodeMacByName mac nodeName macAddr force) w := by
  apply Atomic.check_bind
  intro newMac _
  apply Atomic.check_bind
  intro found _
  apply Atomic.check_bind
  intro _ _
  apply Atomic.check_bind
  intro _ _
  apply Atomic.check_bind
  intro _ _
  exact NeverFails.atomic (.modify_bind (.modify_bind (neverFails_modify _ _)))

theorem atomic_updateLinksMacs (oldMac newMac : String) (force : Bool) :
    Atomic (updateLinksMacs nodeName oldMac newMac force) w := by
  apply Atomic.check_bind
  intro _ _
  exact (neverFails_modify _ w).atomic

theorem atomic_changeNodeWlanMac (oldMacAddr newMacAddr : String) (force : Bool) :
    Atomic (changeNodeWlanMac mac nodeName oldMacAddr newMacAddr force) w := by
  apply Atomic.check_bind
  intro oldMac _
  apply Atomic.check_bind
  intro newMac _
  apply Atomic.check_bind
  intro found _
  apply Atomic.check_bind
  intro _ _
  apply Atomic.check_bind
  intro _ _
  apply Atomic.check_bind
  intro _ _
  apply (atomic_updateLinksMacs w nodeName oldMac newMac force).bind_neverFails
  intro _ t _
  exact .modify_bind (.modify_bind (neverFails_modify _ _))

theorem atomic_addNodeWlanMacs (wlanMacAddrs : List String) :
    Atomic (addNodeWlanMacs mac nodeName wlanMacAddrs) w := by
  apply Atomic.check_bind
  intro found _
  apply Atomic.check_bind
  intro newMacs _
  exact NeverFails.atomic (.modify_bind (neverFails_modify _ _))

end CheckFirst

/-! ### Adding a node -/

/-- The link that `createSiteLinks` makes between two nodes, in canonical order. -/
def wiredLink (a z : String) : Link where
  name := buildLinkName a z
  aNodeName := a
  zNodeName := z
  linkType := .ETHERNET
  isAlive := true

theorem updateLink_wired (a z : String) :
    updateLink { aNodeName := a, zNodeName := z, linkType := .ETHERNET, isAlive := true } =
      if z < a then wiredLink z a else wiredLink a z := by
  unfold updateLink
  split <;> rfl

variable {w : TopologyWrapper}

theorem validateLink_wired {a z : String} (aNode : w.getNode a ≠ none) (zNode : w.getNode z ≠ none)
    (notBothCn : ¬ (w.nodeTypeOf a = some .CN ∧ w.nodeTypeOf z = some .CN)) (ordered : a < z)
    (fresh : w.name2Link (wiredLink a z).name = none) :
    w.validateLink (wiredLink a z) = .ok (wiredLink a z) := by
  have fields : w.validateLinkFields (wiredLink a z) = .ok (wiredLink a z) := by
    simp only [validateLinkFields, except_bind_eq_ok, reject_eq_ok]
    exact ⟨(), aNode, (), zNode, (), notBothCn, wiredLink a z, rfl, (), rfl, (), rfl, (),
      not_le.mpr ordered, (), fun other => other.2 rfl, (), fun taken => taken fresh, rfl⟩
  unfold validateLink
  rw [fields]
  rfl

variable {mac : MacUtils}

theorem neverFails_addWired {a z : String} (aNode : w.getNode a ≠ none) (zNode : w.getNode z ≠ none)
    (notBothCn : ¬ (w.nodeTypeOf a = some .CN ∧ w.nodeTypeOf z = some .CN)) (ordered : a < z) :
    NeverFails (if w.name2Link (wiredLink a z).name ≠ none then pure ()
      else addLink mac (wiredLink a z) >>= fun _ => pure ()) w := by
  split
  · exact neverFails_pure _ w
  · next fresh =>
    have valid := validateLink_wired aNode zNode notBothCn ordered (not_not.mp fresh)
    apply NeverFails.bind
    · apply NeverFails.check_bind (a := wiredLink a z)
      · rfl
      · apply NeverFails.check_bind (a := wiredLink a z)
        · exact valid
        · exact .modify_bind (neverFails_pure _ _)
    · intro _ t _
      exact neverFails_pure _ t

theorem neverFails_createSiteLink {aNode zNode : Node} (aKnown : w.getNode aNode.name = some aNode)
    (zKnown : w.getNode zNode.name = some zNode) :
    NeverFails (createSiteLink mac aNode zNode.name) w := by
  unfold createSiteLink
  split
  · exact neverFails_pure _ w
  next distinct =>
  apply NeverFails.check_bind (a := zNode)
  · simp only [zKnown]
  split
  · exact neverFails_pure _ w
  next notBothCn =>
  have types : ¬ (w.nodeTypeOf aNode.name = some .CN ∧ w.nodeTypeOf zNode.name = some .CN) := by
    simpa [nodeTypeOf, aKnown, zKnown] using notBothCn
  have aThere : w.getNode aNode.name ≠ none := by simp [aKnown]
  have zThere : w.getNode zNode.name ≠ none := by simp [zKnown]
  rw [updateLink_wired]
  split
  · next before =>
    exact neverFails_addWired zThere aThere (fun both => types both.symm) before
  · next notBefore =>
    exact neverFails_addWired aThere zThere types (lt_of_le_of_ne (not_lt.mp notBefore) distinct)

variable {node : Node}

theorem SiteInvariant.getNode_of_mem (sites : SiteInvariant w)
    (member : node ∈ w.topology.nodes) : w.getNode node.name = some node :=
  sites.nodeIndex.find_eq_some_iff.mpr ⟨member, rfl⟩

variable {order : SetOrder}

theorem neverFails_createSiteLinks (sites : SiteInvariant w) (member : node ∈ w.topology.nodes) :
    NeverFails (createSiteLinks mac order true [node]) w := by
  have inner : ∀ v, SiteLinked w v →
      NeverFails (forM (order.toList (v.assocNodes node.siteName)) (createSiteLink mac node)) v := by
    intro v soFar
    have assocKnown : ∀ assocName ∈ order.toList (v.assocNodes node.siteName),
        ∃ zNode ∈ w.topology.nodes, zNode.name = assocName := by
      intro _ listed
      obtain ⟨zNode, zMember, named, _⟩ := ((sites.siteLinked soFar).assoc _ _).mp
        ((order.mem_toList _ _).mp listed)
      rw [soFar.nodes] at zMember
      exact ⟨zNode, zMember, named⟩
    apply NeverFails.forM (SiteLinked w) soFar
    · intro assocName listed t reached
      obtain ⟨_, zMember, named⟩ := assocKnown assocName listed
      have sitesT := sites.siteLinked reached
      rw [← reached.nodes] at zMember
      rw [← named]
      exact neverFails_createSiteLink (sitesT.getNode_of_mem (by rw [reached.nodes]; exact member))
        (sitesT.getNode_of_mem zMember)
    · intro _ _ t _ reached run
      exact createSiteLink_ok reached run
  have outer : NeverFails (forM [node] fun node => do
      modify (·.touchSite node.siteName)
      let v ← get
      forM (order.toList (v.assocNodes node.siteName)) (createSiteLink mac node) :
      TopologyM Unit) w := by
    apply NeverFails.bind
    · apply NeverFails.modify_bind
      apply NeverFails.get_bind
      exact inner _ (.touch node.siteName .refl)
    · intro _ t _
      exact neverFails_pure _ t
  exact outer

/-- `addNode` makes all its checks first, and the wired links it then creates are valid. -/
theorem atomic_addNode {newNode : Node} (sites : SiteInvariant w) :
    Atomic (addNode mac order newNode) w := by
  unfold addNode plugNodeToSite
  simp only [bind_assoc]
  apply Atomic.check_bind
  intro _ standardized
  apply Atomic.check_bind
  intro node validated
  apply Atomic.check_bind
  intro _ placed
  have checked := nodeChecked_of_validated standardized validated placed
  have inserted : pushNode { w.associate node.siteName node.name with
        mac2NodeName := indexMacs w.mac2NodeName node.macs node.name } node =
      w.insertNode node := pushNode_eq sites.nodeIndex checked.fresh
  have linked : NeverFails (createSiteLinks mac order true [node]) (w.insertNode node) :=
    neverFails_createSiteLinks (sites.insertNode checked) (mem_append_right _ (by simp))
  rw [← inserted] at linked
  apply NeverFails.atomic
  apply NeverFails.modify_bind
  apply NeverFails.modify_bind
  apply NeverFails.modify_bind
  apply NeverFails.get_bind
  split
  · exact linked.bind fun _ t _ => neverFails_pure node t
  · exact neverFails_pure node _

/-! ### Deleting links that are there -/

/-- A link that `delLink` does not protect. -/
def deletable (force : Bool) (link : Link) : Prop :=
  ¬ (force = false ∧ link.linkType = .WIRELESS ∧ link.isAlive = true)

variable {force : Bool} {v : TopologyWrapper}

theorem neverFails_delLink {link : Link}
    (exact : v.ExactLinks)
    (member : link ∈ v.topology.links)
    (named : link.name = buildLinkName link.aNodeName link.zNodeName) (down : deletable force link) :
    NeverFails (delLink link.aNodeName link.zNodeName force) v := by
  obtain ⟨i, present⟩ := getElem?_of_mem member
  have stored := exact.index_eq present
  rw [named] at stored
  apply NeverFails.check_bind (a := (i, link))
  · exact linkRef_eq_ok.mpr ⟨stored, present⟩
  · apply NeverFails.check_bind (a := ())
    · exact reject_eq_ok.mpr down
    · exact neverFails_modify _ v

theorem neverFails_delLinks {snapshot : List Link}
    (exact : v.ExactLinks)
    (member : ∀ link ∈ snapshot, link ∈ v.topology.links)
    (named : ∀ link ∈ snapshot, link.name = buildLinkName link.aNodeName link.zNodeName)
    (down : ∀ link ∈ snapshot, deletable force link) (once : (snapshot.map Link.name).Nodup) :
    NeverFails (delLinks snapshot force) v := by
  induction snapshot generalizing v with
  | nil => exact neverFails_pure _ v
  | cons first _ ih =>
    apply NeverFails.bind
    · exact neverFails_delLink exact (member first (by simp)) (named first (by simp))
        (down first (by simp))
    · intro _ t deleting
      obtain ⟨i, stored, rfl⟩ := delLink_ok deleting
      rw [← named first (by simp)] at stored ⊢
      rw [map_cons, nodup_cons] at once
      apply ih (exact.eraseIdx stored)
      · intro link later
        apply (exact.mem_eraseIdx_iff stored).mpr
        refine ⟨member link (by simp [later]), ?_⟩
        intro same
        rw [← same] at once
        exact once.1 (mem_map_of_mem later)
      · exact fun link later => named link (by simp [later])
      · exact fun link later => down link (by simp [later])
      · exact once.2

/-! ### Deleting a node -/

/-- `delNode` throws only before its first change: the links it deletes are there. -/
theorem atomic_delNode {nodeName : String} (sites : SiteInvariant w) (links : LinkInvariant w) :
    Atomic (delNode nodeName force) w := by
  apply Atomic.check_bind
  intro ⟨i, node⟩ found
  obtain ⟨stored, present⟩ := nodeRef_eq_ok.mp found
  have named : node.name = nodeName := sites.nodeIndex.sound.key_eq stored present
  subst named
  apply Atomic.check_bind
  intro _ _
  apply Atomic.check_bind
  intro _ _
  apply NeverFails.atomic
  apply NeverFails.modify_bind
  apply NeverFails.bind
  · apply NeverFails.check_bind (a := (i, node))
    · exact nodeRef_eq_ok.mpr ⟨stored, present⟩
    · exact .modify_bind (neverFails_modify _ _)
  · intro _ t unplugged
    apply NeverFails.modify_bind
    rw [unplugged_eraseNode stored present unplugged]
    have exact : (w.removeNode i node).ExactLinks := by
      rw [ExactLinks, removeNode_links, removeNode_name2Link]
      exact links.index
    apply neverFails_delLinks exact
    · intro _ ofNode
      rw [removeNode_links]
      exact (mem_getLinksByNodeName.mp ofNode).1
    · exact fun link ofNode =>
        (links.wellFormed link (mem_getLinksByNodeName.mp ofNode).1).named
    · exact fun _ _ guarded => Bool.noConfusion guarded.1
    · exact links.index.nodup.sublist (filter_sublist.map Link.name)

/-! ### Deleting MACs -/

variable {nodeLinks : List Link} {macs : List String}

theorem neverFails_deleteMacs {i : Nat}
    (never : NeverFails (delLinks (selectedLinks nodeLinks macs) force) v) :
    NeverFails (forM macs (deleteNodeWlanMac i nodeLinks force)) v := by
  intro e t thrown
  have both := deleteMacs_run nodeLinks force i macs v
  rw [thrown] at both
  split at both
  · cases both
  · next failed => exact never _ _ failed

variable {e : ControllerError}

theorem delLink_error {aNodeName zNodeName : String}
    (run : (delLink aNodeName zNodeName force).run v = .error e v') :
    ∃ what, e = .invalidArgument what := by
  rcases check_bind_eq_error.mp run with ⟨missing, _⟩ | ⟨⟨i, _⟩, _, run⟩
  · unfold linkRef at missing
    split at missing
    · cases missing
      exact ⟨_, rfl⟩
    · split at missing
      · cases missing
        exact ⟨_, rfl⟩
      · cases missing
  · rcases check_bind_eq_error.mp run with ⟨alive, _⟩ | ⟨_, _, run⟩
    · unfold reject failIf at alive
      split at alive
      · cases alive
        exact ⟨_, rfl⟩
      · cases alive
    · exact absurd run (neverFails_modify _ v e v')

theorem deleteMacs_error {i : Nat}
    (run : (forM macs (deleteNodeWlanMac i nodeLinks force)).run v = .error e v') :
    (∃ what, e = .invalidArgument what) ∧ ∃ macAddr ∈ macs, v'.mac2NodeName macAddr = none := by
  obtain ⟨macAddr, listed, t, _, failed⟩ := forM_eq_error (fun _ => True) trivial run
    fun _ _ _ _ _ _ => trivial
  rw [deleteNodeWlanMac_eq] at failed
  have unindexed : (t.dropMacs i [macAddr]).mac2NodeName macAddr = none := by
    simp [dropMacs, unindexMacs]
  obtain ⟨_, _, u, stillUnindexed, thrown⟩ := forM_eq_error
    (fun u => u.mac2NodeName macAddr = none) unindexed failed fun _ _ u _ before deleting => by
      rw [(delLink_frame deleting).mac2NodeName]
      exact before
  have same : v' = u := atomic_delLink u _ _ _ e v' thrown
  exact ⟨delLink_error thrown, macAddr, listed, by rw [same]; exact stillUnindexed⟩

/-- The accepted MACs select no link twice: none carries two of them or a repeated one. -/
def NoLinkSelectedTwice (mac : MacUtils) (w : TopologyWrapper) : TopologyOp → Prop
  | .deleteNodeWlanMacs nodeName wlanMacAddrs force =>
    ∀ macs, wlanMacAddrs.mapM (validateMacsToDelete mac w nodeName
        (w.getLinksByNodeName nodeName) force) = .ok macs →
      ((selectedLinks (w.getLinksByNodeName nodeName) macs).map Link.name).Nodup
  | _ => True

instance (mac : MacUtils) (w : TopologyWrapper) : ∀ op, Decidable (NoLinkSelectedTwice mac w op) := by
  rintro (_ | _) <;> dsimp only [NoLinkSelectedTwice] <;> infer_instance

section DeleteMacs

variable {nodeName : String} {wlanMacAddrs : List String}

theorem LinkInvariant.named_of_selected (links : LinkInvariant w) {macs : List String} :
    ∀ link ∈ selectedLinks (w.getLinksByNodeName nodeName) macs,
      link.name = buildLinkName link.aNodeName link.zNodeName :=
  fun link selected => (links.wellFormed link (selectedLinks_subset selected)).named

theorem atomic_deleteNodeWlanMacs (links : LinkInvariant w)
    (once : NoLinkSelectedTwice mac w (.deleteNodeWlanMacs nodeName wlanMacAddrs force)) :
    Atomic (deleteNodeWlanMacs mac nodeName wlanMacAddrs force) w := by
  apply Atomic.check_bind
  intro ⟨i, _⟩ _
  apply Atomic.check_bind
  intro macs validated
  have down : ∀ macAddr ∈ macs, ∀ link ∈ w.getLinksByNodeName nodeName, carries macAddr link →
      deletable force link :=
    except_mapM_forall validated fun _ _ passed => (validateMacsToDelete_ok passed).2.2
  apply NeverFails.atomic
  apply neverFails_deleteMacs
  apply neverFails_delLinks links.index selectedLinks_subset links.named_of_selected _
    (once macs validated)
  intro link selected
  obtain ⟨macAddr, listed, ofNode, carried⟩ := mem_selectedLinks.mp selected
  exact down macAddr listed link ofNode carried

/-- A call that selects a link twice fails to delete it again, and leaves a MAC out of the index. -/
theorem noLinkSelectedTwice_of_atomic (sites : SiteInvariant w) (links : LinkInvariant w)
    (unchanged : ∀ what w', (deleteNodeWlanMacs mac nodeName wlanMacAddrs force).run w =
      .error (.invalidArgument what) w' → w' = w) :
    NoLinkSelectedTwice mac w (.deleteNodeWlanMacs nodeName wlanMacAddrs force) := by
  intro macs validated
  cases stored : w.name2Node nodeName with
  | none =>
    have noLinks : w.getLinksByNodeName nodeName = [] := by
      apply eq_nil_iff_forall_not_mem.mpr
      intro _ ofNode
      obtain ⟨member, ends⟩ := mem_getLinksByNodeName.mp ofNode
      exact links.not_incident stored member ends
    have nothing : selectedLinks [] macs = [] := flatMap_eq_nil_iff.mpr fun _ _ => rfl
    rw [noLinks, nothing]
    exact nodup_nil
  | some i =>
    obtain ⟨node, present, _⟩ := sites.nodeIndex.sound _ _ stored
    have runs : (deleteNodeWlanMacs mac nodeName wlanMacAddrs force).run w =
        (forM macs (deleteNodeWlanMac i (w.getLinksByNodeName nodeName) force)).run w := by
      apply Eq.trans (run_check_bind (a := (i, node)) _)
      · exact run_check_bind validated
      · exact nodeRef_eq_ok.mpr ⟨stored, present⟩
    cases outcome : (forM macs
        (deleteNodeWlanMac i (w.getLinksByNodeName nodeName) force)).run w with
    | ok =>
      obtain ⟨u, deleting, _⟩ := deleteMacs_ok outcome
      exact (delLinks_ok links.named_of_selected links.index deleting).2.2.1
    | error e w' =>
      obtain ⟨⟨what, rfl⟩, macAddr, listed, unindexed⟩ := deleteMacs_error outcome
      have owned : w.mac2NodeName macAddr = some nodeName :=
        except_mapM_forall validated (fun _ _ passed => (validateMacsToDelete_ok passed).2.1)
          macAddr listed
      rw [unchanged what w' (runs.trans outcome), owned] at unindexed
      cases unindexed

end DeleteMacs

/-! ### All mutators -/

theorem atomic_exec {op : TopologyOp} (sites : SiteInvariant w) (links : LinkInvariant w)
    (once : NoLinkSelectedTwice mac w op) :
    Atomic (exec mac order op) w := by
  cases op with
  | addNode => exact (atomic_addNode sites).discard
  | delNode => exact atomic_delNode sites links
  | editNode nodeName newNode => exact atomic_editNode w nodeName newNode
  | addLink newLink => exact (atomic_addLink mac w newLink).discard
  | delLink aNodeName zNodeName force => exact atomic_delLink w aNodeName zNodeName force
  | addSite newSite => exact atomic_addSite w newSite
  | delSite siteName => exact atomic_delSite w siteName
  | editSite siteName newSite => exact atomic_editSite w siteName newSite
  | setNodeMacByName nodeName macAddr force =>
    exact atomic_setNodeMacByName mac w nodeName macAddr force
  | changeNodeWlanMac nodeName oldMac newMac force =>
    exact atomic_changeNodeWlanMac mac w nodeName oldMac newMac force
  | addNodeWlanMacs nodeName wlanMacAddrs =>
    exact atomic_addNodeWlanMacs mac w nodeName wlanMacAddrs
  | deleteNodeWlanMacs => exact atomic_deleteNodeWlanMacs links once
  | setNodePrefix =>
    apply Atomic.check_bind
    intro found _
    exact (neverFails_modify _ w).atomic
  | setNodeStatus nodeName status | setLinkStatus linkName alive | bumpLinkupAttempts linkName
  | resetLinkupAttempts linkName | setLocation nodeMac location =>
    apply Atomic.discard
    apply NeverFails.atomic
    apply NeverFails.get_bind
    split
    · exact neverFails_pure _ w
    · exact .modify_bind (neverFails_pure _ _)

/-- While link names stay apart, a mutator that throws `invalid_argument` leaves the topology and
the index maps as they were, exactly when it selects no link for deletion twice. -/
theorem failure_atomic_iff (mac : MacUtils) (w : TopologyWrapper)
    (reached : RunsTo mac DistinctLinkNames LinkNamesApart w) (order : SetOrder)
    (op : TopologyOp) :
    (∀ what w', (exec mac order op).run w = .error (.invalidArgument what) w' → w' = w) ↔
      NoLinkSelectedTwice mac w op := by
  have sites := SiteInvariant.of_runsTo reached
  have links := LinkInvariant.of_runsTo (fun _ given => given) (fun _ _ apart => apart) reached
  constructor
  · intro unchanged
    cases op with
    | deleteNodeWlanMacs =>
      exact noLinkSelectedTwice_of_atomic sites links unchanged
    | _ => trivial
  · intro once _ w' thrown
    exact atomic_exec sites links once _ w' thrown

/-- Two linked nodes; the link uses a WLAN MAC of `a`. -/
def wlanPair : Topology :=
  oneSite [{ name := "a", wlanMacAddrs := ["02:00:00:00:00:01"] }, { name := "b" }]
    [{ aNodeName := "a", zNodeName := "b", linkType := .WIRELESS, aNodeMac := "02:00:00:00:00:01" }]

/-- The second MAC is unknown, so the call throws, before the link of the first one is deleted. -/
theorem failure_atomic_with_unknown_mac : ∃ w, build twoMacs .sorted wlanPair false [] = .ok w ∧
      ∃ w', (exec twoMacs .sorted (.deleteNodeWlanMacs "a"
          ["02:00:00:00:00:01", "02:00:00:00:00:02"] false)).run w =
            .error (.invalidArgument "WLAN MAC address `02:00:00:00:00:02` does not exist") w' ∧
        w' = w := by
  refine build_exists (fun w => decide (NoLinkSelectedTwice twoMacs w (.deleteNodeWlanMacs "a"
      ["02:00:00:00:00:01", "02:00:00:00:00:02"] false) ∧
    ∃ w', (exec twoMacs .sorted (.deleteNodeWlanMacs "a"
        ["02:00:00:00:00:01", "02:00:00:00:00:02"] false)).run w =
          .error (.invalidArgument "WLAN MAC address `02:00:00:00:00:02` does not exist") w' ∧
      w'.topology.links = w.topology.links)) true (by decide) ?_
  intro w built seen
  have reached : RunsTo twoMacs DistinctLinkNames LinkNamesApart w :=
    build_runsTo (by decide) (by decide) built
  obtain ⟨once, w', thrown, _⟩ := of_decide_eq_true seen
  exact ⟨w', thrown, (failure_atomic_iff _ w reached .sorted _).mpr once _ w' thrown⟩

/-- The MAC is given twice: the second round throws because the link is gone already. -/
theorem failure_atomic_fails : ∃ w, Reachable twoMacs w ∧
      ∃ w', (exec twoMacs .sorted (.deleteNodeWlanMacs "a"
          ["02:00:00:00:00:01", "02:00:00:00:00:01"] false)).run w =
            .error (.invalidArgument "Link `link-a-b` does not exist") w' ∧
        w.topology.links.map Link.name = ["link-a-b"] ∧ w'.topology.links = [] ∧
        w.mac2NodeName "02:00:00:00:00:01" = some "a" ∧
        w'.mac2NodeName "02:00:00:00:00:01" = none := by
  obtain ⟨w, reached, seen⟩ := reachable_of_build twoMacs .sorted wlanPair false []
    (fun w => decide (∃ w', (exec twoMacs .sorted (.deleteNodeWlanMacs "a"
          ["02:00:00:00:00:01", "02:00:00:00:00:01"] false)).run w =
            .error (.invalidArgument "Link `link-a-b` does not exist") w' ∧
        w.topology.links.map Link.name = ["link-a-b"] ∧ w'.topology.links = [] ∧
        w.mac2NodeName "02:00:00:00:00:01" = some "a" ∧
        w'.mac2NodeName "02:00:00:00:00:01" = none)) true (by decide)
  exact ⟨w, reached, of_decide_eq_true seen⟩

/-- The fields of a node that no check of `addNode` replaces. -/
structure SameRecord (given stored : Node) : Prop where
  name : stored.name = given.name
  siteName : stored.siteName = given.siteName
  popNode : stored.popNode = given.popNode
  nodePrefix : stored.nodePrefix = given.nodePrefix

variable {newNode : Node} {w' : TopologyWrapper}

theorem addNode_record
    (run : (addNode mac order newNode).run w = .ok node w') :
    SameRecord newNode node := by
  simp only [addNode, check_bind_eq_ok] at run
  obtain ⟨_, standardized, valid, validated, run⟩ := run
  obtain ⟨_, _, _, _, sameValid⟩ := validateNode_ok validated
  obtain ⟨_, sameStd⟩ := standardizeNodeMacs_ok standardized
  have returned : node = valid := by
    simp only [bind_eq_ok] at run
    obtain ⟨_, _, _, _, _, _, _, _, _, _, _, _, run⟩ := run
    split at run
    · obtain ⟨_, _, _, final⟩ := bind_eq_ok.mp run
      cases final
      rfl
    · cases run
      rfl
  rw [returned, sameValid, sameStd]
  exact ⟨rfl, rfl, rfl, rfl⟩

theorem addLink_ends {newLink link : Link} (run : (addLink mac newLink).run w = .ok link w') :
    link.aNodeName = newLink.aNodeName ∧ link.zNodeName = newLink.zNodeName := by
  simp only [addLink, check_bind_eq_ok] at run
  obtain ⟨_, standardized, _, validated, run⟩ := run
  cases run
  simp only [validateLink, except_bind_eq_ok] at validated
  obtain ⟨_, fields, _, _, final⟩ := validated
  cases final
  obtain ⟨sameA, sameZ⟩ := standardizeLinkMacs_ok standardized
  rw [← sameA, ← sameZ]
  exact (validateLinkFields_ok fields).2

section Nodes

theorem addNode_nodes
    (sites : SiteInvariant w) (run : (addNode mac order newNode).run w = .ok node w') :
    w'.topology.nodes = w.topology.nodes ++ [node] :=
  (addNode_ok sites.nodeIndex run).2.nodes

variable {nodeName : String}

theorem delNode_nodes (sites : SiteInvariant w) (run : (delNode nodeName force).run w = .ok () w')
    :
    node ∈ w'.topology.nodes ↔ node ∈ w.topology.nodes ∧ node.name ≠ nodeName := by
  obtain ⟨i, _, stored, _, _, unlinked⟩ := delNode_ok sites.nodeIndex run
  rw [(delLinks_frame unlinked).nodes, removeNode_nodes]
  exact sites.nodeIndex.mem_eraseIdx_iff stored

/-- When `delNode` throws, nothing has changed, or the node is gone and some of its links. -/
theorem delNode_error (sites : SiteInvariant w) {error : ControllerError}
    (run : (delNode nodeName force).run w = .error error w') :
    w' = w ∨ ∃ i node, w.name2Node node.name = some i ∧ w.topology.nodes[i]? = some node ∧
      LinkFrame (w.removeNode i node) w' := by
  rcases check_bind_eq_error.mp run with ⟨_, same⟩ | ⟨⟨i, node⟩, found, run⟩
  · exact .inl same
  obtain ⟨stored, present⟩ := nodeRef_eq_ok.mp found
  have named : node.name = nodeName := sites.nodeIndex.sound.key_eq stored present
  subst named
  rcases check_bind_eq_error.mp run with ⟨_, same⟩ | ⟨_, _, run⟩
  · exact .inl same
  rcases bind_eq_error.mp run with got | ⟨_, _, got, run⟩
  · cases got
  cases got
  rcases check_bind_eq_error.mp run with ⟨_, same⟩ | ⟨_, _, run⟩
  · exact .inl same
  rcases bind_eq_error.mp run with unindexed | ⟨_, _, unindexed, run⟩
  · cases unindexed
  cases unindexed
  rcases bind_eq_error.mp run with failed | ⟨_, t, unplugged, run⟩
  · rcases check_bind_eq_error.mp failed with ⟨missing, _⟩ | ⟨_, _, never⟩
    · cases missing.symm.trans (nodeRef_eq_ok.mpr ⟨stored, present⟩)
    · cases never
  have erased := unplugged_eraseNode stored present unplugged
  rcases bind_eq_error.mp run with never | ⟨_, _, written, run⟩
  · cases never
  cases written
  simp only [erased] at run
  -- the link loop throws in a state it has reached by deleting links
  obtain ⟨_, _, v, frame, failed⟩ := forM_eq_error (LinkFrame (w.removeNode i node))
    (LinkFrame.refl _) run fun _ _ _ _ soFar step => soFar.trans (delLink_frame step)
  have unchanged : w' = v := atomic_delLink v _ _ _ error w' failed
  exact .inr ⟨i, node, stored, present, unchanged ▸ frame⟩

theorem editNode_nodes (sites : SiteInvariant w)
    (run : (editNode nodeName newNode).run w = .ok () w') :
    w'.topology.nodes = w.topology.nodes.map fun node =>
      if node.name = nodeName then { editProps newNode node with name := newNode.name }
      else node := by
  obtain ⟨i, node, stored, _, _, _, rfl⟩ := editNode_ok run
  have written : ∀ f : Node → Node, w.topology.nodes.modify i f = w.topology.nodes.map fun node =>
      if node.name = nodeName then f node else node :=
    fun f => sites.nodeIndex.modify_eq_map stored f
  split
  · next sameName =>
    change w.topology.nodes.modify i (editProps newNode) = _
    rw [written]
    apply map_congr_left
    intro other _
    by_cases here : other.name = nodeName
    · have unnamed : { editProps newNode other with name := newNode.name } =
          editProps newNode other := by
        rw [sameName, ← here, ← editProps_name newNode other]
      rw [if_pos here, if_pos here, unnamed]
    · rw [if_neg here, if_neg here]
  · rw [renameNode_nodes]
    change (w.topology.nodes.modify i (editProps newNode)).modify i _ = _
    rw [modify_modify_eq, written]
    rfl

theorem editSite_nodes (sites : SiteInvariant w) {siteName : String} {newSite : Site}
    (run : (editSite siteName newSite).run w = .ok () w') :
    w'.topology.nodes = w.topology.nodes.map fun node =>
      if newSite.name ≠ "" ∧ node.siteName = siteName then { node with siteName := newSite.name }
      else node := by
  obtain ⟨i, site, v, stored, present, located, outcome⟩ := editSite_ok run
  have named : site.name = siteName := sites.siteIndex.sound.key_eq stored present
  have same : SiteInvariant v ∧ v.topology.nodes = w.topology.nodes := by
    rcases located with rfl | rfl
    · exact ⟨sites, rfl⟩
    · exact ⟨sites.shape (SameShape.modifySite w i _ fun _ => rfl), rfl⟩
  rcases outcome with ⟨unnamed, rfl⟩ | ⟨_, nonempty, _, rfl⟩
  · rw [same.2]
    refine (map_id _).symm.trans (map_congr_left fun node _ => ?_)
    split
    · next moved =>
      have sameName : newSite.name = node.siteName :=
        (unnamed.resolve_right moved.1).trans (named.trans moved.2.symm)
      rw [sameName]
      rfl
    · rfl
  · rw [same.1.renameSite_nodes, same.2]
    simp only [ne_eq, nonempty, not_false_eq_true, true_and]

/-! ### Prefixes -/

/-- Every node of `w'` with a prefix is a node of `w` that carries it, perhaps under another name. -/
def Inherits (rename : String → String) (w w' : TopologyWrapper) : Prop :=
  ∀ node ∈ w'.topology.nodes, ∀ text, node.nodePrefix = some text → text ≠ "" →
    ∃ before ∈ w.topology.nodes, node.name = rename before.name ∧ before.nodePrefix = some text

theorem Inherits.of_subset (nodes : w'.topology.nodes ⊆ w.topology.nodes) : Inherits id w w' := by
  intro node member _ carries _
  exact ⟨node, nodes member, rfl, carries⟩

theorem Inherits.of_nodes (nodes : w'.topology.nodes = w.topology.nodes) : Inherits id w w' :=
  .of_subset fun _ member => nodes ▸ member

theorem inherits_addNode
    (sites : SiteInvariant w) (run : (addNode mac order newNode).run w = .ok node w')
    (unprefixed : ∀ text, newNode.nodePrefix = some text → text = "") : Inherits id w w' := by
  intro other member text carries nonempty
  rw [addNode_nodes sites run, mem_append, mem_singleton] at member
  rcases member with old | rfl
  · exact ⟨other, old, rfl, carries⟩
  · rw [(addNode_record run).nodePrefix] at carries
    exact absurd (unprefixed text carries) nonempty

theorem inherits_delNode (sites : SiteInvariant w)
    (run : (delNode nodeName force).run w = .ok () w') : Inherits id w w' :=
  .of_subset fun _ member => ((delNode_nodes sites run).mp member).1

/-- The new name of the node that `editNode` edits. -/
def editedName (nodeName newName name : String) : String :=
  if name = nodeName then newName else name

theorem inherits_editNode (sites : SiteInvariant w)
    (run : (editNode nodeName newNode).run w = .ok () w') :
    Inherits (editedName nodeName newNode.name) w w' := by
  intro _ member _ carries _
  rw [editNode_nodes sites run] at member
  obtain ⟨before, isBefore, rfl⟩ := mem_map.mp member
  refine ⟨before, isBefore, ?_⟩
  unfold editedName
  split at carries
  · next here =>
    rw [if_pos here, if_pos here]
    simp only [editProps_keeps] at carries
    exact ⟨rfl, carries⟩
  · next elsewhere =>
    rw [if_neg elsewhere, if_neg elsewhere]
    exact ⟨rfl, carries⟩

theorem inherits_editSite (sites : SiteInvariant w) {siteName : String} {newSite : Site}
    (run : (editSite siteName newSite).run w = .ok () w') : Inherits id w w' := by
  intro _ member _ carries _
  rw [editSite_nodes sites run] at member
  obtain ⟨before, isBefore, rfl⟩ := mem_map.mp member
  refine ⟨before, isBefore, ?_⟩
  split at carries
  · next here =>
    rw [if_pos here]
    exact ⟨rfl, carries⟩
  · next elsewhere =>
    rw [if_neg elsewhere]
    exact ⟨rfl, carries⟩

end Nodes

end Terragraph
