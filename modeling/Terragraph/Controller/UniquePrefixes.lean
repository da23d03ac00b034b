/-
Module: Terragraph.Controller.UniquePrefixes
Purpose: Under the centralized allocator prefixes stay unique, and no two nodes ever carry the same
  prefix in the runs of a controller.
Trusted boundary: human-reviewed definition of the runs
Main exports: Registered.step, SamePrefix, prefixes_stay_distinct
-/
import Terragraph.Controller.UniqueZoned
import Terragraph.PrefixAlloc.Centralized

namespace Terragraph

open Guarded Function List Option

def Owned (net : NetworkUtils) (s : AllocState Centralized) (node : Node) : Prop :=
  ∀ text, node.nodePrefix = some text → text ≠ "" → ∃ network, net.createNetwork text = .ok network ∧
    s.allocator.prefix2NodeName network = some node.name

/-- The prefixes of all nodes are registered, except for those with the given names. -/
structure RegisteredBut (net : NetworkUtils) (pending : List String) (s : AllocState Centralized) :
    Prop where
  sites : SiteInvariant s.topologyW
  owned : ∀ node ∈ s.topologyW.topology.nodes, node.name ∉ pending → Owned net s node

abbrev Registered (net : NetworkUtils) (s : AllocState Centralized) : Prop :=
  RegisteredBut net [] s

variable {nodeName : String} {network : CIDRNetwork} {node : Node}

section Entering

variable {net : NetworkUtils} {params : PrefixAllocParams} {pending : List String}
  {s s' : AllocState Centralized}

theorem RegisteredBut.entered (registered : RegisteredBut net pending s)
    {rest : List String}
    (unowned : ∀ owner, s.allocator.prefix2NodeName network = some owner → owner = nodeName)
    (left : ∀ name ∈ pending, name = nodeName ∨ name ∈ rest) :
    RegisteredBut net rest (entered net nodeName network s) := by
  refine ⟨registered.sites.withPrefixes net _, ?_⟩
  intro _ member settled text carries nonempty
  obtain ⟨before, isBefore, named, _, nodePrefix⟩ := mem_withPrefixes member
  rw [carries] at nodePrefix
  change ∃ other, _ ∧ update s.allocator.prefix2NodeName network (some nodeName) other = _
  by_cases here : before.name = nodeName
  · rw [here, update_self, map_some, some_or] at nodePrefix
    rw [some.inj nodePrefix, named, here]
    exact ⟨network, net.createNetwork_networkToString network, update_self ..⟩
  · rw [update_of_ne here, map_none, none_or] at nodePrefix
    have wasSettled : before.name ∉ pending := by
      intro wasPending
      rcases left before.name wasPending with same | remains
      · exact here same
      · exact settled (named ▸ remains)
    obtain ⟨other, parsed, owner⟩ := registered.owned before isBefore wasSettled text
      nodePrefix.symm nonempty
    have apart : other ≠ network := by
      rintro rfl
      exact here (unowned before.name owner)
    exact ⟨other, parsed, by rw [update_of_ne apart, owner, named]⟩

theorem exists_mem_entered {name : String}
    (stored : ∃ other ∈ s.topologyW.topology.nodes, other.name = name) :
    ∃ other ∈ (entered net nodeName network s).topologyW.topology.nodes, other.name = name := by
  obtain ⟨_, isOther, named⟩ := stored
  obtain ⟨after, isAfter, sameName, _⟩ := exists_mem_withPrefixes isOther
  exact ⟨after, isAfter, sameName.trans named⟩

theorem RegisteredBut.allocateAll {nodes : List Node}
    (registered : RegisteredBut net (nodes.map Node.name) s)
    (stored : ∀ node ∈ nodes, ∃ other ∈ s.topologyW.topology.nodes, other.name = node.name)
    (ran : (forM nodes (allocateToNode net params)).run s = .ok () s') : Registered net s' := by
  induction nodes generalizing s with
  | nil =>
    cases ran
    exact registered
  | cons node _ ih =>
    obtain ⟨_, t, allocated, rest⟩ := bind_eq_ok.mp ran
    rw [run_allocateToNode net params registered.sites (stored node mem_cons_self)] at allocated
    cases found : nextPrefix params s.allocator.prefix2NodeName with
    | none =>
      rw [found] at allocated
      cases allocated
    | some =>
      rw [found] at allocated
      cases allocated
      have free := (nextPrefix_eq_some params found).2
      refine ih (registered.entered ?_ ?_) ?_ rest
      · intro _ isOwner
        rw [free] at isOwner
        cases isOwner
      · intro _ isName
        exact mem_cons.mp isName
      · intro other isOther
        exact exists_mem_entered (stored other (mem_cons_of_mem _ isOther))

theorem Registered.allocate (sites : SiteInvariant s.topologyW)
    (ran : (Centralized.allocate net params).run s = .ok () s') : Registered net s' := by
  have loop : (forM s.topologyW.topology.nodes (allocateToNode net params)).run
      { s with allocator := ⟨fun _ => none⟩ } = .ok () s' := ran
  have cleared : RegisteredBut net (s.topologyW.topology.nodes.map Node.name)
      { s with allocator := ⟨fun _ => none⟩ } := by
    refine ⟨sites, fun node member settled => ?_⟩
    exact absurd (mem_map.mpr ⟨node, member, rfl⟩) settled
  exact cleared.allocateAll (fun node member => ⟨node, member, rfl⟩) loop

/-! ### The prefixes that are in the topology already -/

/-- The first loop of `populatePrefixes` registers prefixes, and changes no owner. -/
structure GivenRegistered (net : NetworkUtils) (nodes copies : List Node)
    (s s' : AllocState Centralized) : Prop where
  topologyW : s'.topologyW = s.topologyW
  keeps : ∀ network owner, s.allocator.prefix2NodeName network = some owner →
    s'.allocator.prefix2NodeName network = some owner
  names : copies.map Node.name = nodes.map Node.name
  owned : ∀ node ∈ nodes, Owned net s' node ∨
    ∃ copy ∈ copies, copy.name = node.name ∧ copy.givenPrefix = none

theorem givenRegistered_one {copy : Node}
    (ran : (registerGivenPrefix net params node).run s = .ok copy s') :
    GivenRegistered net [node] [copy] s s' := by
  unfold registerGivenPrefix at ran
  cases given : node.givenPrefix with
  | none =>
    rw [given] at ran
    cases ran
    exact ⟨rfl, fun _ _ kept => kept, rfl,
      forall_mem_singleton.mpr (.inr ⟨_, mem_cons_self, rfl, given⟩)⟩
  | some =>
    rw [given] at ran
    obtain ⟨_, checked, rest⟩ := check_bind_eq_ok.mp ran
    have passed : validatePrefix net params s.allocator.prefix2NodeName node false = .ok () := by
      cases outcome : validatePrefix net params s.allocator.prefix2NodeName node false with
      | ok => rfl
      | error =>
        rw [outcome] at checked
        cases checked
    obtain ⟨network, parsed, unowned⟩ := validatePrefix_ok net params given passed
    simp only [createNetwork, parsed, pure_bind] at rest
    split at rest
    · cases rest
      refine ⟨rfl, ?_, rfl, forall_mem_singleton.mpr (.inl ?_)⟩
      · intro other owner isOwner
        change update s.allocator.prefix2NodeName network (some node.name) other = _
        by_cases here : other = network
        · subst here
          rw [update_self, unowned owner isOwner]
        · rw [update_of_ne here, isOwner]
      · refine fun _ carries _ => ⟨network, ?_, update_self ..⟩
        obtain ⟨isPrefix, _⟩ := filter_eq_some_iff.mp given
        rw [isPrefix] at carries
        rw [← some.inj carries, parsed]
    · cases rest
      exact ⟨rfl, fun _ _ kept => kept, rfl,
        forall_mem_singleton.mpr (.inr ⟨_, mem_cons_self, rfl, rfl⟩)⟩

theorem Owned.mono (owned : Owned net s node)
    (keeps : ∀ network owner, s.allocator.prefix2NodeName network = some owner →
      s'.allocator.prefix2NodeName network = some owner) : Owned net s' node := by
  intro text carries nonempty
  obtain ⟨network, parsed, owner⟩ := owned text carries nonempty
  exact ⟨network, parsed, keeps network _ owner⟩

theorem givenRegistered_all {nodes copies : List Node}
    (ran : (nodes.mapM (registerGivenPrefix net params)).run s = .ok copies s') :
    GivenRegistered net nodes copies s s' := by
  induction nodes generalizing s copies with
  | nil =>
    cases ran
    exact ⟨rfl, fun _ _ kept => kept, rfl, fun _ isNode => by cases isNode⟩
  | cons node _ ih =>
    rw [mapM_cons] at ran
    obtain ⟨copy, t, first, ran⟩ := bind_eq_ok.mp ran
    obtain ⟨_, _, rest, ran⟩ := bind_eq_ok.mp ran
    cases ran
    have head := givenRegistered_one first
    have tail := ih rest
    refine ⟨tail.topologyW.trans head.topologyW,
      fun _ _ isOwner => tail.keeps _ _ (head.keeps _ _ isOwner), ?_,
      forall_mem_cons.mpr ⟨?_, fun each later => ?_⟩⟩
    · rw [map_cons, map_cons, tail.names, (cons.inj head.names).1]
    · rcases head.owned node mem_cons_self with owned | ⟨_, isCopy, lost⟩
      · exact .inl (owned.mono tail.keeps)
      · rw [mem_singleton.mp isCopy] at lost
        exact .inr ⟨copy, mem_cons_self, lost⟩
    · rcases tail.owned each later with owned | ⟨same, isCopy, lost⟩
      · exact .inl owned
      · exact .inr ⟨same, mem_cons_of_mem _ isCopy, lost⟩

theorem Registered.populatePrefixes (sites : SiteInvariant s.topologyW)
    (ran : (Centralized.populatePrefixes net params).run s = .ok () s') : Registered net s' := by
  obtain ⟨copies, t, first, second⟩ := bind_eq_ok.mp
    (show (do let copies ← s.topologyW.topology.nodes.mapM (registerGivenPrefix net params)
              forM copies (assignMissingPrefix net params) : CpaM Unit).run
      { s with allocator := ⟨fun _ => none⟩ } = .ok () s' from ran)
  have given := givenRegistered_all first
  have loop : (forM (copies.filter (Node.givenPrefix · = none)) (allocateToNode net params)).run t =
      .ok () s' := by
    rw [← forM_ite]
    exact second
  refine RegisteredBut.allocateAll ⟨given.topologyW ▸ sites, ?_⟩ ?_ loop
  · intro node member settled
    rw [given.topologyW] at member
    rcases given.owned node member with owned | ⟨copy, isCopy, named, unset⟩
    · exact owned
    · have pending : copy ∈ copies.filter (Node.givenPrefix · = none) := by
        simp [isCopy, unset]
      exact absurd (mem_map.mpr ⟨copy, pending, named⟩) settled
  · intro copy isCopy
    have named : copy.name ∈ s.topologyW.topology.nodes.map Node.name :=
      given.names ▸ mem_map_of_mem (mem_of_mem_filter isCopy)
    rw [given.topologyW]
    obtain ⟨node, isNode, same⟩ := mem_map.mp named
    exact ⟨node, isNode, same⟩

end Entering

/-! ### Requests -/

/-- The topology app of a controller that runs the centralized allocator. -/
def cpaApp (mac : MacUtils) (configHelper : ConfigUtils) (net : NetworkUtils)
    (params : PrefixAllocParams) (order : SetOrder) : TopologyApp Centralized where
  mac := mac
  order := order
  configHelper := configHelper
  prefixAllocator := some (centralized net params)

/-- A request whose prefix, if it brings one, passes the check of the allocator. -/
def ValidRequest (net : NetworkUtils) (params : PrefixAllocParams) (s : AllocState Centralized) :
    Request → Prop
  | .addNode node => validatePrefix net params s.allocator.prefix2NodeName node true = .ok ()
  | _ => True

namespace Registered

variable {mac : MacUtils} {configHelper : ConfigUtils} {net : NetworkUtils}
  {params : PrefixAllocParams} {order : SetOrder} {s s' : AllocState Centralized} {request : Request}

variable {w : TopologyWrapper}

section

variable (registered : Registered net s)
include registered

theorem topology (sites : SiteInvariant w)
    (inherits : Inherits id s.topologyW w) (config : AutoNodesOverrides) :
    Registered net { s with topologyW := w, config := config } := by
  refine ⟨sites, fun node member _ text carries nonempty => ?_⟩
  obtain ⟨before, isBefore, named, carried⟩ := inherits node member text carries nonempty
  rw [named]
  exact registered.owned before isBefore not_mem_nil text carried nonempty

theorem rejected {op : TopologyOp} {error : ControllerError}
    (asked : request.op = some op) (failed : (exec mac order op).run s.topologyW = .error error w)
    (config : AutoNodesOverrides) :
    Registered net { s with topologyW := w, config := config } := by
  rcases rejected_cases registered.sites asked failed with rfl | ⟨i, _, stored, present, frame⟩
  · exact registered.topology registered.sites (.of_nodes rfl) config
  · refine registered.topology ((registered.sites.removeNode stored present).frame frame)
      (.of_subset ?_) config
    rw [frame.nodes, removeNode_nodes]
    exact eraseIdx_subset

theorem addNode {newNode : Node}
    (valid : validatePrefix net params s.allocator.prefix2NodeName newNode true = .ok ())
    (ran : (Terragraph.addNode mac order newNode).run s.topologyW = .ok node w)
    (sites : SiteInvariant w) (config : AutoNodesOverrides) :
    Ends (Registered net)
      ((Centralized.addNode net params node).run { s with topologyW := w, config := config }) := by
  have record := addNode_record ran
  have nodes := addNode_nodes registered.sites ran
  have stored : ∃ other ∈ w.topology.nodes, other.name = node.name :=
    ⟨node, by rw [nodes]; simp, rfl⟩
  have but : RegisteredBut net [node.name] { s with topologyW := w, config := config } := by
    refine ⟨sites, fun other member apart => ?_⟩
    rw [nodes, mem_append, mem_singleton] at member
    rcases member with old | rfl
    · exact registered.owned other old not_mem_nil
    · exact absurd mem_cons_self apart
  have finish : ∀ network, (∀ owner, s.allocator.prefix2NodeName network = some owner →
      owner = node.name) →
      Registered net (entered net node.name network { s with topologyW := w, config := config }) :=
    fun network unowned => but.entered unowned fun _ isName => .inl (mem_singleton.mp isName)
  have valid : validatePrefix net params s.allocator.prefix2NodeName node true = .ok () :=
    (validatePrefix_congr net params record).trans valid
  rw [Centralized.run_addNode net params sites stored]
  cases given : node.givenPrefix with
  | none =>
    cases found : nextPrefix params s.allocator.prefix2NodeName with
    | none =>
      refine registered.topology sites (inherits_addNode registered.sites ran ?_) config
      intro _ carries
      by_contra nonempty
      rw [← record.nodePrefix] at carries
      simp [Node.givenPrefix, carries, nonempty] at given
    | some network =>
      apply finish network
      intro _ isOwner
      rw [(nextPrefix_eq_some params found).2] at isOwner
      cases isOwner
  | some =>
    obtain ⟨network, parsed, unowned⟩ := validatePrefix_ok net params given valid
    simp only [valid, parsed]
    exact finish network unowned

theorem owner (isNode : node ∈ s.topologyW.topology.nodes) {text : String}
    (carries : node.nodePrefix = some text) (parsed : net.createNetwork text = .ok network) :
    s.allocator.prefix2NodeName network = some node.name := by
  obtain ⟨_, parsedOwn, owner⟩ := registered.owned node isNode not_mem_nil text carries (by
    rintro rfl
    exact net.createNetwork_empty network parsed)
  cases parsed.symm.trans parsedOwn
  exact owner

theorem delNode {force : Bool}
    (isNode : node ∈ s.topologyW.topology.nodes) (named : node.name = nodeName)
    (ran : (Terragraph.delNode nodeName force).run s.topologyW = .ok () w) (sites : SiteInvariant w)
    (config : AutoNodesOverrides) :
    Ends (Registered net)
      ((Centralized.delNode net node).run { s with topologyW := w, config := config }) := by
  have kept := registered.topology sites (inherits_delNode registered.sites ran) config
  rw [Centralized.run_delNode]
  cases given : node.givenPrefix with
  | none => exact kept
  | some text =>
    simp only
    cases parsed : net.createNetwork text with
    | error => exact kept
    | ok network =>
      refine ⟨sites, fun other member _ text' carries nonempty => ?_⟩
      have owner := registered.owner isNode (filter_eq_some_iff.mp given).1 parsed
      obtain ⟨wasOther, apartName⟩ := (delNode_nodes registered.sites ran).mp member
      obtain ⟨network', parsed', owner'⟩ := registered.owned other wasOther not_mem_nil text'
        carries nonempty
      have apart : network' ≠ network := by
        rintro rfl
        rw [owner] at owner'
        exact apartName ((some.inj owner').symm.trans named)
      exact ⟨network', parsed', (update_of_ne apart _ _).trans owner'⟩

theorem editNode {newNode : Node}
    (isNode : node ∈ s.topologyW.topology.nodes) (named : node.name = nodeName)
    (ran : (Terragraph.editNode nodeName newNode).run s.topologyW = .ok () w)
    (sites : SiteInvariant w) (config : AutoNodesOverrides) :
    Ends (Registered net)
      ((Centralized.editNode net node newNode).run { s with topologyW := w, config := config }) := by
  have inherits := inherits_editNode registered.sites ran
  obtain ⟨_, _, _, _, renamed, _, _⟩ := editNode_ok ran
  have only : ∀ before ∈ s.topologyW.topology.nodes, before.name = nodeName → before = node :=
    fun before isBefore here => inj_on_of_nodup_map registered.sites.nodeIndex.nodup isBefore
      isNode (here.trans named.symm)
  -- it suffices that the registry follows the name of the edited node
  have follow : ∀ allocated : CIDRNetwork → Option String,
      (∀ before ∈ s.topologyW.topology.nodes, ∀ network text, before.nodePrefix = some text →
        text ≠ "" → net.createNetwork text = .ok network →
        s.allocator.prefix2NodeName network = some before.name →
        allocated network = some (editedName nodeName newNode.name before.name)) →
      Registered net { topologyW := w, config := config, allocator := ⟨allocated⟩ } := by
    intro _ follows
    refine ⟨sites, fun other member _ text carries nonempty => ?_⟩
    obtain ⟨before, isBefore, otherName, carried⟩ := inherits other member text carries nonempty
    obtain ⟨network, parsed, owner⟩ := registered.owned before isBefore not_mem_nil text carried
      nonempty
    exact ⟨network, parsed,
      otherName ▸ follows before isBefore network text carried nonempty parsed owner⟩
  -- nothing has to follow if the node is not renamed or carries no prefix
  have still : (newNode.name = nodeName ∨ ∀ text, node.nodePrefix = some text → text = "") →
      Registered net { s with topologyW := w, config := config } := by
    intro unchanged
    refine follow s.allocator.prefix2NodeName ?_
    intro before isBefore _ text carries nonempty _ owner
    rw [owner, editedName]
    split
    · next here =>
      rcases unchanged with same | unprefixed
      · rw [same, here]
      · exact absurd (unprefixed text (only before isBefore here ▸ carries)) nonempty
    · rfl
  rw [Centralized.run_editNode]
  cases isPrefix : node.nodePrefix with
  | none => exact still (.inr fun _ carries => by rw [isPrefix] at carries; cases carries)
  | some text =>
    simp only
    split
    · cases parsed : net.createNetwork text with
      | error =>
        refine still (.inr fun text' carries => ?_)
        by_contra nonempty
        obtain ⟨_, parsed', _⟩ := registered.owned node isNode not_mem_nil text' carries nonempty
        rw [isPrefix] at carries
        cases carries
        cases parsed.symm.trans parsed'
      | ok network =>
        have owner := registered.owner isNode isPrefix parsed
        simp only [owner]
        refine follow _ ?_
        intro before isBefore network' _ carries _ parsed' owner'
        rw [editedName]
        split
        · next here =>
          rw [only before isBefore here, isPrefix] at carries
          cases carries
          cases parsed.symm.trans parsed'
          exact update_self ..
        · next elsewhere =>
          have apart : network' ≠ network := by
            rintro rfl
            rw [owner] at owner'
            exact elsewhere ((some.inj owner').symm.trans named)
          exact (update_of_ne apart _ _).trans owner'
    · next unchanged =>
      refine still (.inl ?_)
      by_contra apart
      exact unchanged ⟨(renamed apart).1, named ▸ apart⟩

theorem applied (valid : ValidRequest net params s request)
    (changes : request ≠ .allocatePrefixes) {hook : CpaM Unit}
    (isApplied : Applied (cpaApp mac configHelper net params order) s request w hook)
    (config : AutoNodesOverrides) :
    Ends (Registered net) (hook.run { s with topologyW := w, config := config }) := by
  have sites : SiteInvariant w := registered.sites.applied isApplied
  cases isApplied with
  | addNode ran => exact registered.addNode valid ran sites config
  | @delNode _ _ _ ran =>
    obtain ⟨i, _, stored, present, named, _⟩ := delNode_ok registered.sites.nodeIndex ran
    have found := registered.sites.getNode_eq stored present
    simp only [found]
    exact registered.delNode (mem_of_getElem? present) named ran sites config
  | @editNode _ _ _ ran =>
    obtain ⟨i, _, stored, present, _, _, _⟩ := editNode_ok ran
    have named := registered.sites.nodeIndex.sound.key_eq stored present
    have found := registered.sites.getNode_eq stored present
    simp only [found]
    exact registered.editNode (mem_of_getElem? present) named ran sites config
  | addLink ran =>
    obtain ⟨_, _, rfl⟩ := addLink_ok ran
    exact registered.topology sites (.of_nodes rfl) config
  | delLink ran => exact registered.topology sites (.of_nodes (delLink_frame ran).nodes) config
  | addSite ran =>
    obtain ⟨_, _, rfl⟩ := addSite_ok ran
    exact registered.topology sites (.of_nodes rfl) config
  | delSite ran =>
    obtain ⟨_, _, _, rfl⟩ := delSite_ok ran
    exact registered.topology sites (.of_nodes rfl) config
  | editSite ran =>
    exact registered.topology sites (inherits_editSite registered.sites ran) config
  | allocatePrefixes => exact absurd rfl changes

theorem step (valid : ValidRequest net params s request) {success : Bool}
    (answered : respond (cpaApp mac configHelper net params order) request s = some (success, s')) :
    Registered net s' := by
  by_cases reallocates : request = .allocatePrefixes
  · subst reallocates
    rcases respond_allocatePrefixes answered with rfl | ran
    · exact registered
    · exact Registered.allocate registered.sites ran
  · exact respond_keeps answered registered
      (fun _ config kept => kept.topology kept.sites (.of_nodes rfl) config)
      (fun _ _ _ asked failed => registered.rejected asked failed _)
      (fun _ _ isApplied => registered.applied valid reallocates isApplied _)

end

end Registered

open Deterministic

def SamePrefix (net : NetworkUtils) (one two : String) : Prop :=
  (one ≠ "" ∧ one = two) ∨
    ∃ network, net.createNetwork one = .ok network ∧ net.createNetwork two = .ok network

def PrefixesDistinct (net : NetworkUtils) (w : TopologyWrapper) : Prop :=
  w.topology.nodes.Pairwise fun first second =>
    ∀ one two, first.nodePrefix = some one → second.nodePrefix = some two → ¬ SamePrefix net one two

/-! ### Runs -/

def answer {α : Type} (app : TopologyApp α) (request : Request) (s : AllocState α) :
    Option (AllocState α) :=
  (respond app request s).map Prod.snd

def Answers {α : Type} (app : SetOrder → TopologyApp α) (s : AllocState α) (request : Request)
    (s' : AllocState α) : Prop :=
  ∃ order, answer (app order) request s = some s'

/-- The centralized allocator has taken over the prefixes of a topology, or allocated all anew. -/
def CentralizedStart (mac : MacUtils) (net : NetworkUtils) (params : PrefixAllocParams)
    (s : AllocState Centralized) : Prop :=
  ∃ before, Reachable mac before.topologyW ∧
    ((Centralized.populatePrefixes net params).run before = .ok () s ∨
      (Centralized.allocate net params).run before = .ok () s)

/-- The deterministic allocator has allocated prefixes, and that replaces all prefixes. -/
def DeterministicStart (mac : MacUtils) (net : NetworkUtils) (params : PrefixAllocParams)
    (buffer : Nat) (s : AllocState Deterministic) : Prop :=
  ∃ order before, Reachable mac before.topologyW ∧ getPopSiteNames before.topologyW ≠ ∅ ∧
    ReallocationSafe before.topologyW ∧
    (allocate net params order buffer).run before = .ok () s

variable {w : TopologyWrapper}

section Runs

variable {mac : MacUtils} {configHelper : ConfigUtils} {net : NetworkUtils}
  {params : PrefixAllocParams} {buffer : Nat}

theorem Answers.responded {α : Type} {app : SetOrder → TopologyApp α} {s s' : AllocState α}
    {request : Request} (answers : Answers app s request s') :
    ∃ order success, respond (app order) request s = some (success, s') := by
  obtain ⟨order, answered⟩ := answers
  obtain ⟨⟨success, _⟩, responded, rfl⟩ := map_eq_some_iff.mp answered
  exact ⟨order, success, responded⟩

variable {one two : String}

theorem SamePrefix.nonempty (same : SamePrefix net one two) :
    one ≠ "" ∧ two ≠ "" := by
  rcases same with ⟨nonempty, rfl⟩ | ⟨network, parsedOne, parsedTwo⟩
  · exact ⟨nonempty, nonempty⟩
  · constructor
    · rintro rfl
      exact net.createNetwork_empty network parsedOne
    · rintro rfl
      exact net.createNetwork_empty network parsedTwo

theorem SamePrefix.symm (same : SamePrefix net one two) :
    SamePrefix net two one := by
  rcases same with ⟨nonempty, rfl⟩ | ⟨network, parsedOne, parsedTwo⟩
  · exact .inl ⟨nonempty, rfl⟩
  · exact .inr ⟨network, parsedTwo, parsedOne⟩

theorem SamePrefix.eq_of_parsed {first second : CIDRNetwork}
    (same : SamePrefix net one two) (parsedOne : net.createNetwork one = .ok first)
    (parsedTwo : net.createNetwork two = .ok second) : first = second := by
  rcases same with ⟨_, rfl⟩ | ⟨_, isOne, isTwo⟩
  · exact Except.ok.inj (parsedOne.symm.trans parsedTwo)
  · cases parsedOne.symm.trans isOne
    cases parsedTwo.symm.trans isTwo
    rfl

theorem PrefixesDistinct.of_names (sites : SiteInvariant w)
    (distinct : ∀ first ∈ w.topology.nodes, ∀ second ∈ w.topology.nodes, ∀ one two,
      first.nodePrefix = some one → second.nodePrefix = some two → SamePrefix net one two →
        first.name = second.name) : PrefixesDistinct net w := by
  have names := List.pairwise_map.mp sites.nodeIndex.nodup
  refine names.imp_of_mem ?_
  intro first second isFirst isSecond apart one two isOne isTwo same
  exact apart (distinct first isFirst second isSecond one two isOne isTwo same)

theorem Registered.prefixesDistinct {s : AllocState Centralized} (registered : Registered net s) :
    PrefixesDistinct net s.topologyW := by
  refine .of_names registered.sites ?_
  intro first isFirst second isSecond one two isOne isTwo same
  obtain ⟨_, parsed, owner⟩ := registered.owned first isFirst List.not_mem_nil one isOne
    same.nonempty.1
  obtain ⟨_, parsed', owner'⟩ := registered.owned second isSecond List.not_mem_nil two isTwo
    same.nonempty.2
  cases same.eq_of_parsed parsed parsed'
  exact some.inj (owner.symm.trans owner')

variable {s : AllocState Deterministic}

theorem PrefixesApart.prefixesDistinct
    (apart : PrefixesApart net params s) : PrefixesDistinct net s.topologyW := by
  refine .of_names apart.ok.sites ?_
  intro first isFirst second isSecond one two isOne isTwo same
  obtain ⟨network, rfl⟩ := apart.canonical first isFirst one isOne same.nonempty.1
  obtain ⟨network', rfl⟩ := apart.canonical second isSecond two isTwo same.nonempty.2
  cases same.eq_of_parsed (net.createNetwork_networkToString network)
    (net.createNetwork_networkToString network')
  exact apart.distinct first isFirst second isSecond network isOne isTwo

theorem CentralizedStart.registered {s : AllocState Centralized}
    (started : CentralizedStart mac net params s) : Registered net s := by
  obtain ⟨_, reached, ran⟩ := started
  have sites := SiteInvariant.of_runsTo reached
  rcases ran with populated | allocated
  · exact Registered.populatePrefixes sites populated
  · exact Registered.allocate sites allocated

theorem registered_of_reaches {s : AllocState Centralized}
    (reached : Transition.Reaches (CentralizedStart mac net params)
      (Answers (cpaApp mac configHelper net params)) (ValidRequest net params) s) :
    Registered net s := by
  refine reached.invariant _ (fun _ started => started.registered) ?_
  intro t _ _ holds valid taken
  obtain ⟨_, _, responded⟩ := taken.responded
  exact holds.step valid responded

theorem DeterministicStart.prefixesApart
    (started : DeterministicStart mac net params buffer s) : PrefixesApart net params s := by
  obtain ⟨order, _, reached, hasPop, safe, ran⟩ := started
  have sites := SiteInvariant.of_runsTo reached
  have outcome := allocate_outcome net params order buffer sites
  rw [ran] at outcome
  cases outcome with
  | noPop _ none => exact absurd none hasPop
  | found _ _ _ _ done => exact PrefixesApart.reallocated sites hasPop safe done

/-- No two nodes carry the same prefix, as long as nodes come with valid prefixes under the centralized
allocator and with none under the deterministic one, and the deterministic allocator reallocates only
where that replaces all prefixes. -/
theorem prefixes_stay_distinct (buffer : Nat) :
    (∀ s, Transition.Reaches (CentralizedStart mac net params)
        (Answers (cpaApp mac configHelper net params)) (ValidRequest net params) s →
      PrefixesDistinct net s.topologyW) ∧
    ∀ s, Transition.Reaches (DeterministicStart mac net params buffer)
        (Answers (dpaApp mac configHelper net params buffer)) (SafeRequest mac) s →
      PrefixesDistinct net s.topologyW := by
  constructor
  · intro s reached
    exact (registered_of_reaches reached).prefixesDistinct
  · intro s reached
    have apart : PrefixesApart net params s := by
      refine reached.invariant (PrefixesApart net params) (fun _ started => started.prefixesApart) ?_
      intro t _ _ holds safe taken
      obtain ⟨_, _, responded⟩ := taken.responded
      exact holds.step safe responded
    exact apart.prefixesDistinct

/-- Also after failed requests, the indices are exact and the map has the owner of each prefix. -/
theorem prefix_map_complete {s : AllocState Centralized}
    (reached : Transition.Reaches (CentralizedStart mac net params)
      (Answers (cpaApp mac configHelper net params)) (ValidRequest net params) s) :
    Registered net s :=
  registered_of_reaches reached

end Runs

/-! ### Examples of runs -/

def noMacs : MacUtils := .ofCanonical [] (by decide)

def noConfig : ConfigUtils where
  setNodeTopologyInfo _ _ config := config
  onAddLink _ _ config := config

def Centralized.start (w : TopologyWrapper) : AllocState Centralized :=
  { topologyW := w, config := fun _ => none, allocator := ⟨fun _ => none⟩ }

/-- The state after an allocation and the answers to some requests. -/
def stateAfter {α : Type} (allocate : AllocM α Unit) (app : TopologyApp α) (requests : List Request)
    (s : AllocState α) : Option (AllocState α) :=
  match allocate.run s with
  | .ok _ t => Transition.replay (answer app) requests t
  | .error _ _ => none

theorem reaches_stateAfter {α : Type} {allocate : AllocM α Unit} {app : SetOrder → TopologyApp α}
    {order : SetOrder} {start : AllocState α → Prop} {allowed : AllocState α → Request → Prop}
    {requests : List Request} {s s' : AllocState α}
    (ran : stateAfter allocate (app order) requests s = some s')
    (starts : ∀ t, allocate.run s = .ok () t → start t)
    (permitted : ∀ t, Transition.Permitted (answer (app order)) allowed requests t) :
    Transition.Reaches start (Answers app) allowed s' := by
  unfold stateAfter at ran
  split at ran
  · next t allocated =>
    have reached := (Transition.Reaches.start (starts t allocated)).replay (permitted t) ran
    exact reached.mono_step fun _ _ _ answered => ⟨order, answered⟩
  · cases ran

def prefixedNames {α : Type} (s : AllocState α) : List String :=
  (s.topologyW.topology.nodes.filter (·.nodePrefix.isSome)).map Node.name

/-- Both nodes keep their prefixes when the site of one of them cannot be deleted. -/
theorem prefix_map_complete_rejected :
    ∃ s, prefixedNames s = ["a", "b"] ∧ Registered .binary s := by
  obtain ⟨_, built, seen⟩ := reachable_of_build noMacs .sorted twoSites false []
    (fun w => (stateAfter (Centralized.allocate .binary fourPrefixes)
      (cpaApp noMacs noConfig .binary fourPrefixes .sorted) [.delSite "S"]
      (Centralized.start w)).map prefixedNames) (some ["a", "b"]) (by decide +kernel)
  obtain ⟨s, ran, names⟩ := map_eq_some_iff.mp seen
  refine ⟨s, names, prefix_map_complete (reaches_stateAfter ran ?_ ?_)⟩
  · exact fun _ ran => ⟨_, built, .inr ran⟩
  · exact fun _ => ⟨trivial, fun _ _ => trivial⟩

def joining : Node := { name := "c", siteName := "S" }

theorem ReallocationSafe.of_unprefixed
    (unprefixed : ∀ node ∈ w.topology.nodes, node.nodePrefix = none) : ReallocationSafe w := by
  refine .inr fun node member _ carries => ?_
  rw [unprefixed node member] at carries
  cases carries

theorem safeRequest_joining (s : AllocState Deterministic) :
    SafeRequest noMacs s (.addNode joining) := by
  constructor
  · intro _ carries
    cases carries
  · intro popNode
    cases popNode

/-- Under both allocators the third node gets a third prefix. -/
theorem prefixes_stay_distinct_after_addNode :
    (∃ s, Transition.Reaches (CentralizedStart noMacs .binary fourPrefixes)
        (Answers (cpaApp noMacs noConfig .binary fourPrefixes)) (ValidRequest .binary fourPrefixes) s ∧
      prefixedNames s = ["a", "b", "c"] ∧ PrefixesDistinct .binary s.topologyW) ∧
    ∃ s, Transition.Reaches (DeterministicStart noMacs .binary fourPrefixes 1)
        (Answers (dpaApp noMacs noConfig .binary fourPrefixes 1)) (SafeRequest noMacs) s ∧
      prefixedNames s = ["a", "b", "c"] ∧ PrefixesDistinct .binary s.topologyW := by
  constructor
  · obtain ⟨w, reached, seen⟩ := reachable_of_build noMacs .sorted twoSites false []
      (fun w => (stateAfter (Centralized.allocate .binary fourPrefixes)
        (cpaApp noMacs noConfig .binary fourPrefixes .sorted) [.addNode joining]
        (Centralized.start w)).map prefixedNames) (some ["a", "b", "c"]) (by decide +kernel)
    obtain ⟨s, ran, names⟩ := map_eq_some_iff.mp seen
    have run : Transition.Reaches (CentralizedStart noMacs .binary fourPrefixes)
        (Answers (cpaApp noMacs noConfig .binary fourPrefixes)) (ValidRequest .binary fourPrefixes) s :=
      reaches_stateAfter ran (fun t allocated => ⟨_, reached, .inr allocated⟩)
        fun t => ⟨rfl, fun _ _ => trivial⟩
    exact ⟨s, run, names, (prefixes_stay_distinct 1).1 s run⟩
  · obtain ⟨w, reached, seen⟩ := reachable_of_build noMacs .sorted twoSites false []
      (fun w => (decide (getPopSiteNames w ≠ ∅ ∧ ∀ node ∈ w.topology.nodes, node.nodePrefix = none),
        (stateAfter (allocate .binary fourPrefixes .sorted 1)
          (dpaApp noMacs noConfig .binary fourPrefixes 1 .sorted) [.addNode joining]
          (start w)).map prefixedNames)) (true, some ["a", "b", "c"])
      (by decide +kernel)
    obtain ⟨initial, final⟩ := Prod.mk.inj seen
    obtain ⟨hasPop, unprefixed⟩ := of_decide_eq_true initial
    obtain ⟨s, ran, names⟩ := map_eq_some_iff.mp final
    have safe := ReallocationSafe.of_unprefixed unprefixed
    have run : Transition.Reaches (DeterministicStart noMacs .binary fourPrefixes 1)
        (Answers (dpaApp noMacs noConfig .binary fourPrefixes 1)) (SafeRequest noMacs) s :=
      reaches_stateAfter ran (fun t allocated => ⟨.sorted, _, reached, hasPop, safe, allocated⟩)
        fun t => ⟨safeRequest_joining t, fun _ _ => trivial⟩
    exact ⟨s, run, names, (prefixes_stay_distinct 1).2 s run⟩

def SharesPrefix (w : TopologyWrapper) : Prop :=
  ∃ first ∈ w.topology.nodes, ∃ second ∈ w.topology.nodes, first.name ≠ second.name ∧
    first.nodePrefix = second.nodePrefix ∧ first.nodePrefix ≠ none ∧ first.nodePrefix ≠ some ""

instance (w : TopologyWrapper) : Decidable (SharesPrefix w) :=
  inferInstanceAs (Decidable (∃ _ ∈ _, ∃ _ ∈ _, _ ∧ _))

theorem SharesPrefix.not_distinct {net : NetworkUtils}
    (shares : SharesPrefix w) : ¬ PrefixesDistinct net w := by
  intro distinct
  obtain ⟨_, isFirst, _, isSecond, apart, same, isSome, nonempty⟩ := shares
  obtain ⟨text, carries⟩ := ne_none_iff_exists'.mp isSome
  have symmetric : Std.Symm fun one two : Node => ∀ text other, one.nodePrefix = some text →
      two.nodePrefix = some other → ¬ SamePrefix net text other :=
    ⟨fun _ _ differ text other isText isOther shared => differ other text isOther isText shared.symm⟩
  refine List.Pairwise.forall distinct isFirst isSecond (fun equal => apart (equal ▸ rfl)) text text carries
    (same ▸ carries) (.inl ⟨?_, rfl⟩)
  rintro rfl
  exact nonempty carries

/-- The centralized allocator rejects a node with the prefix of another one only after it has
entered the topology.  Under the deterministic one a node that has lost its last link keeps its
prefix, and a reallocation gives the same prefix to another node. -/
theorem prefixes_stay_distinct_fails :
    (∃ s, Transition.Reaches (CentralizedStart noMacs .binary fourPrefixes)
        (Answers (cpaApp noMacs noConfig .binary fourPrefixes)) (fun _ _ => True) s ∧
      ¬ PrefixesDistinct .binary s.topologyW) ∧
    ∃ s, Transition.Reaches (DeterministicStart noMacs .binary fourPrefixes 1)
        (Answers (dpaApp noMacs noConfig .binary fourPrefixes 1)) (fun _ _ => True) s ∧
      ¬ PrefixesDistinct .binary s.topologyW := by
  constructor
  · obtain ⟨w, reached, seen⟩ := reachable_of_build noMacs .sorted twoSites false []
      (fun w => (stateAfter (Centralized.allocate .binary fourPrefixes)
        (cpaApp noMacs noConfig .binary fourPrefixes .sorted)
        [.addNode { joining with nodePrefix := some (NetworkUtils.binary.networkToString
          (fourPrefixes.seedPrefix.subnetAt fourPrefixes.allocPrefixLen 0)) }]
        (Centralized.start w)).map fun s => decide (SharesPrefix s.topologyW)) (some true)
      (by decide +kernel)
    obtain ⟨s, ran, shares⟩ := map_eq_some_iff.mp seen
    exact ⟨s, reaches_stateAfter ran (fun t allocated => ⟨_, reached, .inr allocated⟩)
      (Transition.permitted_of_unrestricted _ _), (of_decide_eq_true shares).not_distinct⟩
  · obtain ⟨w, reached, seen⟩ := reachable_of_build noMacs .sorted twoSites false []
      (fun w => (decide (getPopSiteNames w ≠ ∅ ∧ ∀ node ∈ w.topology.nodes, node.nodePrefix = none),
        (stateAfter (allocate .binary fourPrefixes .sorted 1)
          (dpaApp noMacs noConfig .binary fourPrefixes 1 .sorted)
          [.delLink "a" "b" true, .allocatePrefixes, .addNode joining]
          (start w)).map fun s => decide (SharesPrefix s.topologyW))) (true, some true)
      (by decide +kernel)
    obtain ⟨initial, final⟩ := Prod.mk.inj seen
    obtain ⟨hasPop, unprefixed⟩ := of_decide_eq_true initial
    obtain ⟨s, ran, shares⟩ := map_eq_some_iff.mp final
    have safe := ReallocationSafe.of_unprefixed unprefixed
    exact ⟨s, reaches_stateAfter ran
      (fun t allocated => ⟨.sorted, _, reached, hasPop, safe, allocated⟩)
      (Transition.permitted_of_unrestricted _ _), (of_decide_eq_true shares).not_distinct⟩

end Terragraph
