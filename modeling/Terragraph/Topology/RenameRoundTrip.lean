/-
Module: Terragraph.Topology.RenameRoundTrip
Purpose: Renaming a node as substitution of names.
Trusted boundary: none
Main exports: Topology.substitute, rename_is_substitution_fails
-/
import Terragraph.Topology.Links

namespace Terragraph

open Guarded List TopologyWrapper Function

/-! ### Substituting a name -/

/-- The link between two ends, each a name with a MAC: the smaller is `a`, and `link-{a}-{z}` the
name. -/
def Link.between (link : Link) (first second : String × String) : Link :=
  if first.1 < second.1 then
    { link with
      name := "link-" ++ first.1 ++ "-" ++ second.1
      aNodeName := first.1, aNodeMac := first.2, zNodeName := second.1, zNodeMac := second.2 }
  else
    { link with
      name := "link-" ++ second.1 ++ "-" ++ first.1
      aNodeName := second.1, aNodeMac := second.2, zNodeName := first.1, zNodeMac := first.2 }

def substituteName (nodeName newName name : String) : String :=
  if name = nodeName then newName else name

/-- A link of the node gets the new name at that end; all else stays as it is. -/
def Link.substitute (nodeName newName : String) (link : Link) : Link :=
  if incident nodeName link then
    link.between (substituteName nodeName newName link.aNodeName, link.aNodeMac)
      (substituteName nodeName newName link.zNodeName, link.zNodeMac)
  else link

def Node.substitute (nodeName newName : String) (node : Node) : Node :=
  if node.name = nodeName then { node with name := newName } else node

/-- The topology with the new name in the place of the old one. -/
def Topology.substitute (nodeName newName : String) (topology : Topology) : Topology :=
  { topology with
    nodes := topology.nodes.map (Node.substitute nodeName newName)
    links := topology.links.map (Link.substitute nodeName newName) }

/-- Renaming the node is substitution, and renaming it back restores the topology. -/
def RenameIsSubstitution (w : TopologyWrapper) (node : Node) (newName : String) : Prop :=
  ∃ renamed, (editNode node.name { node with name := newName }).run w = .ok () renamed ∧
    renamed.topology = w.topology.substitute node.name newName ∧
    ∃ restored, (editNode newName node).run renamed = .ok () restored ∧
      restored.topology = w.topology

/-- The new names of the node's links are distinct, and none is the old name of one of them. -/
def RenamedApart (w : TopologyWrapper) (nodeName newName : String) : Prop :=
  (w.getLinksByNodeName nodeName).Pairwise
      (fun first later =>
        renamedLinkName nodeName newName first ≠ renamedLinkName nodeName newName later) ∧
    ∀ first ∈ w.getLinksByNodeName nodeName, ∀ second ∈ w.getLinksByNodeName nodeName,
      renamedLinkName nodeName newName first ≠ second.name

instance (w : TopologyWrapper) (nodeName newName : String) :
    Decidable (RenamedApart w nodeName newName) :=
  inferInstanceAs (Decidable (_ ∧ _))

/-! ### One link -/

section OneLink

variable {nodeName newName : String} {link : Link} {first second : String × String}

theorem between_of_lt (less : first.1 < second.1) : link.between first second = { link with
        name := "link-" ++ first.1 ++ "-" ++ second.1
        aNodeName := first.1, aNodeMac := first.2, zNodeName := second.1, zNodeMac := second.2 } :=
  if_pos less

theorem between_comm (apart : first.1 ≠ second.1) :
    link.between first second = link.between second first := by
  rcases lt_or_gt_of_ne apart with less | greater
  · rw [between_of_lt less, Link.between, if_neg (not_lt_of_gt less)]
  · rw [between_of_lt greater, Link.between, if_neg (not_lt_of_gt greater)]

theorem between_ends (ordered : link.aNodeName < link.zNodeName)
    (named : link.name = buildLinkName link.aNodeName link.zNodeName) :
    link.between (link.aNodeName, link.aNodeMac) (link.zNodeName, link.zNodeMac) = link := by
  rw [between_of_lt ordered]
  unfold buildLinkName at named
  rw [← named]

theorem substituteName_self : substituteName nodeName newName nodeName = newName :=
  if_pos rfl

variable {name : String}

theorem substituteName_of_ne (other : name ≠ nodeName) :
    substituteName nodeName newName name = name :=
  if_neg other

theorem incident_between :
    incident name (link.between first second) ↔ first.1 = name ∨ second.1 = name := by
  unfold Link.between incident
  split
  · rfl
  · exact or_comm

theorem substitute_of_incident (ends : incident nodeName link) : link.substitute nodeName newName =
      link.between (substituteName nodeName newName link.aNodeName, link.aNodeMac)
        (substituteName nodeName newName link.zNodeName, link.zNodeMac) :=
  if_pos ends

theorem substitute_of_not_incident (outside : ¬ incident nodeName link) :
    link.substitute nodeName newName = link :=
  if_neg outside

theorem substitute_between (ends : first.1 = nodeName ∨ second.1 = nodeName)
    (apart : first.1 ≠ second.1)
    (apart' : substituteName nodeName newName first.1 ≠ substituteName nodeName newName second.1) :
    (link.between first second).substitute nodeName newName =
      link.between (substituteName nodeName newName first.1, first.2)
        (substituteName nodeName newName second.1, second.2) := by
  rw [substitute_of_incident (incident_between.mpr ends)]
  rcases lt_or_gt_of_ne apart with less | greater
  · rw [between_of_lt less]
    rfl
  · rw [between_comm apart, between_of_lt greater, between_comm apart'.symm]
    rfl

theorem renameLinkEnd_eq_substitute (ordered : link.aNodeName < link.zNodeName)
    (ends : incident nodeName link) (apart : newName ≠ nbrNodeName link nodeName) :
    renameLinkEnd nodeName newName link = link.substitute nodeName newName := by
  have distinct := ne_of_lt ordered
  rw [substitute_of_incident ends]
  unfold renameLinkEnd updateLink
  by_cases isA : link.aNodeName = nodeName
  · rw [nbrNodeName_of_a isA] at apart
    have notZ : link.zNodeName ≠ nodeName := fun isZ => distinct (isA.trans isZ.symm)
    rw [isA, substituteName_self, substituteName_of_ne notZ, if_pos rfl]
    rcases lt_or_gt_of_ne apart with before | after
    · rw [between_of_lt before, if_neg (not_lt_of_gt before)]
      rfl
    · rw [between_comm apart, between_of_lt after, if_pos after]
      rfl
  · have isZ : link.zNodeName = nodeName := ends.resolve_left isA
    rw [nbrNodeName_of_z isA] at apart
    rw [isZ, substituteName_self, substituteName_of_ne isA, if_neg isA]
    rcases lt_or_gt_of_ne apart with before | after
    · rw [between_comm apart.symm, between_of_lt before, if_pos before]
      rfl
    · rw [between_of_lt after, if_neg (not_lt_of_gt after)]
      rfl

theorem substLink_eq_substitute (ordered : link.aNodeName < link.zNodeName)
    (apart : newName ≠ nbrNodeName link nodeName) :
    substLink nodeName newName link = link.substitute nodeName newName := by
  unfold substLink
  split
  · next ends => exact renameLinkEnd_eq_substitute ordered ends apart
  · next outside => exact (substitute_of_not_incident outside).symm

theorem incident_substitute (unused : ¬ incident newName link) :
    incident newName (link.substitute nodeName newName) ↔ incident nodeName link := by
  unfold Link.substitute
  split
  · next ends =>
    refine ⟨fun _ => ends, fun _ => incident_between.mpr ?_⟩
    refine ends.imp ?_ ?_
    · intro isA
      rw [isA]
      exact substituteName_self
    · intro isZ
      rw [isZ]
      exact substituteName_self
  · next outside => exact ⟨fun ends => absurd ends unused, fun ends => absurd ends outside⟩

theorem substituteName_substituteName (nodeName : String) (unused : name ≠ newName) :
    substituteName newName nodeName (substituteName nodeName newName name) = name := by
  by_cases isNode : name = nodeName
  · rw [isNode, substituteName_self, substituteName_self]
  · rw [substituteName_of_ne isNode, substituteName_of_ne unused]

theorem substitute_substitute (ordered : link.aNodeName < link.zNodeName)
    (named : link.name = buildLinkName link.aNodeName link.zNodeName)
    (unused : ¬ incident newName link) :
    (link.substitute nodeName newName).substitute newName nodeName = link := by
  have distinct := ne_of_lt ordered
  by_cases ends : incident nodeName link
  · have back : incident newName (link.substitute nodeName newName) ↔ incident nodeName link :=
      incident_substitute unused
    rw [not_incident_iff] at unused
    have restoresA := substituteName_substituteName nodeName unused.1
    have restoresZ := substituteName_substituteName nodeName unused.2
    have apart : substituteName nodeName newName link.aNodeName ≠
        substituteName nodeName newName link.zNodeName := by
      intro same
      rw [← restoresA, ← restoresZ, same] at distinct
      exact distinct rfl
    have atNew := back.mpr ends
    rw [substitute_of_incident ends, incident_between] at atNew
    rw [substitute_of_incident ends, substitute_between atNew apart]
    · rw [restoresA, restoresZ, between_ends ordered named]
    · rw [restoresA, restoresZ]
      exact distinct
  · rw [substitute_of_not_incident ends, substitute_of_not_incident unused]

theorem substitute_ne (unused : ¬ incident newName link) (ends : incident nodeName link) :
    link.substitute nodeName newName ≠ link := by
  intro same
  have atNew := (incident_substitute unused).mpr ends
  rw [same] at atNew
  exact unused atNew

end OneLink

/-! ### The topology after a rename -/

variable (nodeName newName : String)

theorem renameLinks_topology (links : List Link) (w : TopologyWrapper) :
    (links.foldl (renameLink nodeName newName) w).topology = { w.topology with
        links := (links.foldl (renameLink nodeName newName) w).topology.links } := by
  have oneRound : ∀ (v : TopologyWrapper) (link : Link),
      (renameLink nodeName newName v link).topology =
        { v.topology with links := (renameLink nodeName newName v link).topology.links } := by
    intro v _
    unfold renameLink
    split
    · rfl
    · split <;> rfl
  induction links generalizing w with
  | nil => rfl
  | cons link _ ih =>
    rw [foldl_cons, ih, oneRound w link]

theorem renameNode_topology (i : Nat) (node : Node) (w : TopologyWrapper) :
    (renameNode nodeName newName i node w).topology = { w.topology with
        nodes := w.topology.nodes.modify i fun n => { n with name := newName }
        links := (renameNode nodeName newName i node w).topology.links } := by
  unfold renameNode
  dsimp only [modifyNode, withNodes]
  rw [renameLinks_topology]

variable {w : TopologyWrapper} {nodeName}

variable {newName}

theorem editNode_rename {i : Nat} {node : Node} (stored : w.name2Node nodeName = some i)
    (present : w.topology.nodes[i]? = some node) (renamed : newName ≠ nodeName)
    (nonempty : newName ≠ "") (fresh : w.name2Node newName = none) :
    (editNode nodeName { node with name := newName }).run w =
      .ok () (renameNode nodeName newName i node w) := by
  have keeps : editProps { node with name := newName } node = node := by
    simp [editProps]
  have unchanged : w.modifyNode i (editProps { node with name := newName }) = w := by
    have nodes := map_modify_of_keeps id w.topology.nodes i
      (editProps { node with name := newName }) (fun _ found => by
        cases present.symm.trans found
        exact keeps)
    rw [map_id, map_id] at nodes
    unfold modifyNode withNodes
    rw [nodes]
  unfold editNode
  rw [check_bind_eq_ok]
  refine ⟨(i, node), nodeRef_eq_ok.mpr ⟨stored, present⟩, ?_⟩
  simp only [check_bind_eq_ok, reject_eq_ok, modify_bind_eq_ok, modify_eq_ok]
  refine ⟨(), ?_, (), ?_, (), ?_, ?_⟩
  · unfold validateNodeName
    simp [nonempty, fresh]
  · exact fun retyped => retyped.1.1 rfl
  · exact fun same => renamed same.1
  · rw [if_neg renamed, unchanged]

/-! ### The two passes over the links -/

theorem RenamedEnd.nbrNodeName_eq {link renamed : Link}
    (isRenamed : RenamedEnd nodeName newName link renamed)
    (apart : newName ≠ nbrNodeName link nodeName) :
    nbrNodeName renamed newName = nbrNodeName link nodeName := by
  rcases isRenamed.ends with ⟨isA, isZ, _⟩ | ⟨isA, _, _⟩
  · rw [nbrNodeName_of_a isA, isZ]
  · have notA : renamed.aNodeName ≠ newName := by
      rw [isA]
      exact apart.symm
    rw [nbrNodeName_of_z notA, isA]

section Passes

section

variable (links : LinkInvariant w) (fresh : w.name2Node newName = none)
include links fresh

/-- Renaming forth is substitution exactly when every round finds the link it was meant for. -/
theorem forth_iff (i : Nat) (node : Node) : (renameNode nodeName newName i node w).topology.links =
        w.topology.links.map (Link.substitute nodeName newName) ↔
      Rekey.Resolves Link.name (renameLinkEnd nodeName newName) w.linkTable
        (w.linksAt nodeName) := by
  have table := congrArg Rekey.Table.records (renameNode_table nodeName newName i node w)
  constructor
  · intro substituted
    apply Rekey.resolves_of_changed links.index.sound (linksAt_present w nodeName)
      (linksAt_distinct w nodeName)
    intro target member
    obtain ⟨present, ends⟩ := mem_linksAt.mp member
    have unused := links.not_incident fresh (mem_of_getElem? present)
    rw [← table]
    show (renameNode nodeName newName i node w).topology.links[target.1]? ≠ some target.2
    rw [substituted, getElem?_map, present]
    exact fun same => substitute_ne unused ends (Option.some.inj same)
  · intro resolves
    rw [renameNode_links i node resolves]
    apply map_congr_left
    intro link member
    exact substLink_eq_substitute (links.wellFormed link member).ordered
      (links.nbr_ne_unused fresh nodeName member)

variable {w' : TopologyWrapper}

theorem linksAt_renamed
    (substituted : w'.topology.links = w.topology.links.map (Link.substitute nodeName newName)) :
    w'.linksAt newName =
      (w.linksAt nodeName).map fun target => (target.1, target.2.substitute nodeName newName) := by
  unfold linksAt
  rw [substituted, zipIdx_map, filter_map, map_map, map_map]
  have selected : w.topology.links.zipIdx.filter ((fun entry => decide (incident newName entry.1)) ∘
          Prod.map (Link.substitute nodeName newName) id) =
      w.topology.links.zipIdx.filter fun entry => incident nodeName entry.1 := by
    apply filter_congr
    intro entry member
    have inLinks : entry.1 ∈ w.topology.links := fst_mem_of_mem_zipIdx member
    have same : incident newName (entry.1.substitute nodeName newName) ↔
        incident nodeName entry.1 := incident_substitute (links.not_incident fresh inLinks)
    simp [same]
  rw [selected]
  rfl

theorem substLink_back {link : Link} (member : link ∈ w.topology.links) :
    substLink newName nodeName (link.substitute nodeName newName) = link := by
  have wellFormed := links.wellFormed link member
  have unused := links.not_incident fresh member
  by_cases ends : incident nodeName link
  · have apart := links.nbr_ne_unused fresh nodeName member
    have renamed := renameLinkEnd_renamedEnd wellFormed.ordered ends apart
    rw [renameLinkEnd_eq_substitute wellFormed.ordered ends apart] at renamed
    have notNbr : nodeName ≠ nbrNodeName (link.substitute nodeName newName) newName := by
      rw [renamed.nbrNodeName_eq apart]
      exact (wellFormed.at_end ends).1.symm
    rw [substLink_eq_substitute renamed.ordered notNbr]
    exact substitute_substitute wellFormed.ordered wellFormed.named unused
  · rw [substitute_of_not_incident ends]
    exact if_neg unused

/-- Renaming back restores the links exactly when every round finds the link it was meant for. -/
theorem back_iff
    (sound : KeyIndex.Sound Link.name w'.topology.links w'.name2Link)
    (substituted : w'.topology.links = w.topology.links.map (Link.substitute nodeName newName))
    (i : Nat) (node : Node) :
    (renameNode newName nodeName i node w').topology.links = w.topology.links ↔
      Rekey.Resolves Link.name (renameLinkEnd newName nodeName) w'.linkTable
        (w'.linksAt newName) := by
  have table := congrArg Rekey.Table.records (renameNode_table newName nodeName i node w')
  constructor
  · intro restored
    apply Rekey.resolves_of_changed sound (linksAt_present w' newName) (linksAt_distinct w' newName)
    intro _ member
    rw [linksAt_renamed links fresh substituted] at member
    obtain ⟨old, oldMember, rfl⟩ := mem_map.mp member
    obtain ⟨present, ends⟩ := mem_linksAt.mp oldMember
    have unused := links.not_incident fresh (mem_of_getElem? present)
    rw [← table]
    show (renameNode newName nodeName i node w').topology.links[old.1]? ≠ _
    rw [restored, present]
    exact fun same => substitute_ne unused ends (Option.some.inj same).symm
  · intro resolves
    rw [renameNode_links i node resolves, substituted, map_map]
    conv_rhs => rw [← map_id w.topology.links]
    apply map_congr_left
    intro _ member
    exact substLink_back links fresh member

theorem renameLinkEnd_back
    {link : Link} (member : link ∈ w.topology.links) (ends : incident nodeName link) :
    renameLinkEnd newName nodeName (link.substitute nodeName newName) = link := by
  have back : substLink newName nodeName (link.substitute nodeName newName) = link :=
    substLink_back links fresh member
  rw [substLink, if_pos ((incident_substitute (links.not_incident fresh member)).mpr ends)] at back
  exact back

end

end Passes

/-! ### When both passes find their links -/

/-- A relation between all members of a list, sorted by their order. -/
theorem forall_mem_forall_mem_iff {α : Type} {items : List α} {R : α → α → Prop} :
    (∀ first ∈ items, ∀ second ∈ items, R first second) ↔
      (∀ item ∈ items, R item item) ∧ items.Pairwise R ∧
        items.Pairwise fun first later => R later first := by
  induction items with
  | nil => simp
  | cons =>
    simp only [forall_mem_cons, pairwise_cons, forall_and]
    tauto

section BothPasses

theorem renamedApart_iff : RenamedApart w nodeName newName ↔
    ((w.linksAt nodeName).Pairwise fun first later =>
      renamedLinkName nodeName newName first.2 ≠ renamedLinkName nodeName newName later.2) ∧
    (∀ target ∈ w.linksAt nodeName, renamedLinkName nodeName newName target.2 ≠ target.2.name) ∧
    ((w.linksAt nodeName).Pairwise fun first later =>
      renamedLinkName nodeName newName first.2 ≠ later.2.name) ∧
    (w.linksAt nodeName).Pairwise fun first later =>
      renamedLinkName nodeName newName later.2 ≠ first.2.name := by
  unfold RenamedApart
  rw [← linksAt_map_snd, pairwise_map, forall_mem_forall_mem_iff, pairwise_map,
    pairwise_map, forall_mem_map]

theorem renameNode_sound (links : LinkInvariant w) (nodeName newName : String) (i : Nat)
    (node : Node) :
    KeyIndex.Sound Link.name (renameNode nodeName newName i node w).topology.links
      (renameNode nodeName newName i node w).name2Link := by
  have sound := Rekey.rekeyAll_sound (t := w.linkTable) (f := renameLinkEnd nodeName newName)
    links.index.sound (Rekey.keysOf Link.name (w.linksAt nodeName))
  rw [← renameNode_table nodeName newName i node w] at sound
  exact sound

/-- Forth: no link may get a name that a later link of the node still has. -/
theorem forth_resolves_iff (links : LinkInvariant w) :
    Rekey.Resolves Link.name (renameLinkEnd nodeName newName) w.linkTable (w.linksAt nodeName) ↔
      (w.linksAt nodeName).Pairwise fun first later =>
        renamedLinkName nodeName newName first.2 ≠ later.2.name := by
  have stored : ∀ target ∈ w.linksAt nodeName, w.linkTable.index target.2.name = some target.1 :=
    fun _ member => links.index.index_eq (mem_linksAt.mp member).1
  rw [Rekey.resolves_iff links.index.sound (linksAt_present w nodeName)
    (linksAt_distinct w nodeName)]
  exact ⟨fun both => both.2, fun free => ⟨stored, free⟩⟩

/-- Back: the new names must be new and distinct, and no link may get back the name of a later one.
-/
theorem back_resolves_iff (links : LinkInvariant w) (fresh : w.name2Node newName = none) (i : Nat)
    (node : Node)
    (forth : Rekey.Resolves Link.name (renameLinkEnd nodeName newName) w.linkTable
      (w.linksAt nodeName)) :
    Rekey.Resolves Link.name (renameLinkEnd newName nodeName)
        (renameNode nodeName newName i node w).linkTable
        ((renameNode nodeName newName i node w).linksAt newName) ↔
      ((∀ target ∈ w.linksAt nodeName, renamedLinkName nodeName newName target.2 ≠ target.2.name) ∧
        (w.linksAt nodeName).Pairwise fun first later =>
          renamedLinkName nodeName newName first.2 ≠ renamedLinkName nodeName newName later.2) ∧
      (w.linksAt nodeName).Pairwise fun first later =>
        renamedLinkName nodeName newName later.2 ≠ first.2.name := by
  have present := linksAt_present w nodeName
  have distinct := linksAt_distinct w nodeName
  have table := renameNode_table nodeName newName i node w
  have sound := renameNode_sound links nodeName newName i node
  have moved := linksAt_renamed links fresh ((forth_iff links fresh i node).mpr forth)
  have written : ∀ target ∈ w.linksAt nodeName,
      target.2.substitute nodeName newName = renameLinkEnd nodeName newName target.2 ∧
        renameLinkEnd newName nodeName (target.2.substitute nodeName newName) = target.2 := by
    intro _ member
    obtain ⟨presentTarget, ends⟩ := mem_linksAt.mp member
    have inLinks := mem_of_getElem? presentTarget
    exact ⟨(renameLinkEnd_eq_substitute (links.wellFormed _ inLinks).ordered ends
      (links.nbr_ne_unused fresh nodeName inLinks)).symm, renameLinkEnd_back links fresh inLinks ends⟩
  rw [Rekey.resolves_iff (t := (renameNode nodeName newName i node w).linkTable) sound
    (linksAt_present _ newName) (linksAt_distinct _ newName), moved, forall_mem_map,
    pairwise_map]
  refine and_congr ?_ ?_
  · have reaches := forth.index_iff links.index.sound present distinct
    rw [← table] at reaches
    refine Iff.trans ?_ reaches
    apply forall₂_congr
    intro target member
    rw [(written target member).1]
  · apply List.Pairwise.iff_of_mem
    intro first later inFirst inLater
    rw [(written first inFirst).2, (written later inLater).1]
    exact ne_comm

end BothPasses

/-! ### Main result -/

/-- Both calls of `editNode` treat the nodes right, so the property is about the links. -/
theorem RenameIsSubstitution.iff_links (sites : SiteInvariant w) {node : Node} {i : Nat}
    (present : w.topology.nodes[i]? = some node) (named : node.name ≠ "") (nonempty : newName ≠ "")
    (fresh : w.name2Node newName = none) :
    RenameIsSubstitution w node newName ↔ (renameNode node.name newName i node w).topology.links =
          w.topology.links.map (Link.substitute node.name newName) ∧
        (renameNode newName node.name i { node with name := newName }
          (renameNode node.name newName i node w)).topology.links = w.topology.links := by
  have stored := sites.nodeIndex.index_eq present
  have renamed : newName ≠ node.name := by
    rintro rfl
    rw [stored] at fresh
    cases fresh
  have forth := editNode_rename stored present renamed nonempty fresh
  have presentAfter : (renameNode node.name newName i node w).topology.nodes[i]? =
      some { node with name := newName } := by
    rw [renameNode_nodes, getElem?_modify_eq, present]
    rfl
  have back : (editNode newName node).run (renameNode node.name newName i node w) =
      .ok () (renameNode newName node.name i { node with name := newName }
        (renameNode node.name newName i node w)) := by
    have storedAfter : (renameNode node.name newName i node w).name2Node newName = some i := by
      rw [renameNode_name2Node, update_of_ne renamed, update_self]
    have freshAfter : (renameNode node.name newName i node w).name2Node node.name = none := by
      rw [renameNode_name2Node, update_self]
    have ran := editNode_rename storedAfter presentAfter renamed.symm named freshAfter
    exact ran
  have restoredNodes : (w.topology.nodes.modify i fun n => { n with name := newName }).modify i
      (fun n => { n with name := node.name }) = w.topology.nodes := by
    have nodes := map_modify_of_keeps id w.topology.nodes i
      ((fun n => { n with name := node.name }) ∘ fun n => { n with name := newName })
      (fun _ found => by
        cases present.symm.trans found
        rfl)
    rw [map_id, map_id] at nodes
    rw [modify_modify_eq, nodes]
  constructor
  · intro ⟨_, ranForth, substituted, _, ranBack, restored⟩
    cases forth.symm.trans ranForth
    cases back.symm.trans ranBack
    exact ⟨congrArg Topology.links substituted, congrArg Topology.links restored⟩
  · intro ⟨substituted, restored⟩
    refine ⟨_, forth, ?_, _, back, ?_⟩
    · rw [renameNode_topology, substituted, sites.nodeIndex.modify_eq_map stored]
      rfl
    · rw [renameNode_topology, restored, renameNode_topology]
      rw [restoredNodes]

/-- While no link names clash, renaming a node to an unused name is substitution, forth and back,
exactly when the new names of its links are distinct and none is the old name of one of them. -/
theorem rename_is_substitution_iff (mac : MacUtils) (w : TopologyWrapper)
    (reached : RunsTo mac DistinctLinkNames LinkNamesApart w) (node : Node)
    (member : node ∈ w.topology.nodes) (newName : String) (nonempty : newName ≠ "")
    (unused : ∀ other ∈ w.topology.nodes, other.name ≠ newName) :
    RenameIsSubstitution w node newName ↔ RenamedApart w node.name newName := by
  have sites := SiteInvariant.of_runsTo reached
  have links := LinkInvariant.of_runsTo (fun _ given => given) (fun _ _ apart => apart) reached
  have named := (NodesValid.of_runsTo reached node member).1
  have fresh := sites.nodeIndex.index_eq_none_iff.mpr unused
  obtain ⟨i, present⟩ := getElem?_of_mem member
  rw [RenameIsSubstitution.iff_links sites present named nonempty fresh, renamedApart_iff]
  have sound := renameNode_sound links node.name newName i node
  constructor
  · intro ⟨substituted, restored⟩
    have forth := (forth_iff links fresh i node).mp substituted
    have back := (back_iff links fresh sound substituted i _).mp restored
    obtain ⟨⟨changes, apart⟩, freeBack⟩ := (back_resolves_iff links fresh i node forth).mp back
    exact ⟨apart, changes, (forth_resolves_iff links).mp forth, freeBack⟩
  · intro ⟨apart, changes, freeForth, freeBack⟩
    have forth := (forth_resolves_iff links).mpr freeForth
    have substituted := (forth_iff links fresh i node).mpr forth
    have back := (back_resolves_iff links fresh i node forth).mpr ⟨⟨changes, apart⟩, freeBack⟩
    exact ⟨substituted, (back_iff links fresh sound substituted i _).mpr back⟩

def plainNode (name : String) : Node :=
  { name, nodeType := .DN, status := .OFFLINE, siteName := "S" }

/-- Renaming `a` to `c` turns the ends of the link around, and renaming back restores them. -/
theorem rename_is_substitution_of_a : ∃ w, build (.ofCanonical [] (by decide)) .sorted
        (oneSite [{ name := "a" }, { name := "b" }]
          [{ aNodeName := "a", zNodeName := "b", linkType := .WIRELESS }]) false [] = .ok w ∧
      (w.topology.substitute "a" "c").links.map Link.name = ["link-b-c"] ∧
      RenameIsSubstitution w (plainNode "a") "c" := by
  refine build_exists (fun w => ((w.topology.substitute "a" "c").links.map Link.name,
      decide (plainNode "a" ∈ w.topology.nodes ∧
        (∀ other ∈ w.topology.nodes, other.name ≠ "c") ∧ RenamedApart w "a" "c")))
    (["link-b-c"], true) (by decide) ?_
  intro w built seen
  obtain ⟨names, checked⟩ := Prod.mk.inj seen
  obtain ⟨member, unused, apart⟩ := of_decide_eq_true checked
  have reached : RunsTo (.ofCanonical [] (by decide)) DistinctLinkNames LinkNamesApart w :=
    build_runsTo (by decide) (by decide) built
  exact ⟨names, (rename_is_substitution_iff _ w reached _ member "c" (by decide) unused).mpr apart⟩

/-- Renaming `a` to `a-b` gives the link to `x` the name that the link to `b-x` still has, so that
the round for the second link rewrites the first one again. -/
theorem rename_is_substitution_fails : ∃ w, Reachable (.ofCanonical [] (by decide)) w ∧
      plainNode "a" ∈ w.topology.nodes ∧
      (∀ other ∈ w.topology.nodes, other.name ≠ "a-b") ∧
      ¬ RenameIsSubstitution w (plainNode "a") "a-b" := by
  obtain ⟨w, reached, seen⟩ := reachable_of_build (.ofCanonical [] (by decide)) .sorted
    (oneSite [{ name := "a" }, { name := "x" }, { name := "b-x" }]
      [{ aNodeName := "a", zNodeName := "x", linkType := .WIRELESS },
        { aNodeName := "a", zNodeName := "b-x", linkType := .WIRELESS }])
    false []
    (fun w => decide (plainNode "a" ∈ w.topology.nodes ∧
      (∀ other ∈ w.topology.nodes, other.name ≠ "a-b") ∧
      ∀ renamed, (editNode "a" (plainNode "a-b")).run w = .ok () renamed →
        renamed.topology.links ≠ (w.topology.substitute "a" "a-b").links)) true (by decide)
  obtain ⟨member, unused, differs⟩ := of_decide_eq_true seen
  refine ⟨w, reached, member, unused, ?_⟩
  intro ⟨renamed, ran, substituted, _⟩
  exact differs renamed ran (congrArg Topology.links substituted)

end Terragraph
