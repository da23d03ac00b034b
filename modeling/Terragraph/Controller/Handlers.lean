/-
Module: Terragraph.Controller.Handlers
Purpose: The handlers of `TopologyApp` that change the topology, and what handling a request
  consists of.
Trusted boundary: human-reviewed embedding of `TopologyApp.cpp` and of the functions of
  `ConfigHelper.cpp` that delete overrides, for config files that can be written. What
  `setNodeTopologyInfo` and `onAddLink` write is a parameter; neither throws.
Main exports: ConfigUtils, respond, respond_allocatePrefixes
-/
import Terragraph.PrefixAlloc.Base
import Terragraph.Topology.Atomicity

namespace Terragraph

open Function

/-! ### The automatic config overrides -/

/-- The functions of `ConfigHelper` that generate overrides from the topology. -/
structure ConfigUtils where
  setNodeTopologyInfo : List String → TopologyWrapper → AutoNodesOverrides → AutoNodesOverrides
  onAddLink : TopologyWrapper → Link → AutoNodesOverrides → AutoNodesOverrides

/-- `ConfigHelper::deleteAllNodeOverrides`, for the automatic overrides. -/
def deleteAllNodeOverrides (nodeName : String) (config : AutoNodesOverrides) :
    AutoNodesOverrides :=
  update config nodeName none

/-- `ConfigHelper::deleteAutoLinkOverridesForNode`.  Missing objects on the path are created. -/
def deleteAutoLinkOverridesForNode (mac : MacUtils) (nodeName responderMac : String)
    (config : AutoNodesOverrides) : AutoNodesOverrides :=
  let overrides := (config nodeName).getD {}
  let linkParamsMap := overrides.linkParamsOverride.getD fun _ => none
  update config nodeName (some { overrides with
    linkParamsOverride := some (update linkParamsMap
      (getStandardizedMac mac responderMac) none) })

/-- `ConfigHelper::deleteAutoLinkOverrides`. -/
def deleteAutoLinkOverrides (mac : MacUtils) (link : Link) (config : AutoNodesOverrides) :
    AutoNodesOverrides :=
  let config := if link.zNodeMac = "" then config
    else deleteAutoLinkOverridesForNode mac link.aNodeName link.zNodeMac config
  if link.aNodeMac = "" then config
  else deleteAutoLinkOverridesForNode mac link.zNodeName link.aNodeMac config

/-! ### Handlers -/

/-- What the handlers of `TopologyApp` work with; `prefixAllocator_` may be null. -/
structure TopologyApp (α : Type) where
  mac : MacUtils
  order : SetOrder
  configHelper : ConfigUtils
  prefixAllocator : Option (PrefixAllocator α)

section Handlers

variable {α : Type} (app : TopologyApp α)

/-- `if (prefixAllocator_) ...`. -/
def withAllocator (call : PrefixAllocator α → AllocM α Unit) : AllocM α Unit :=
  match app.prefixAllocator with
  | none => return ()
  | some allocator => call allocator

/-- `setNodeTopologyInfo` on the overrides and the topology as they are. -/
def setNodeTopologyInfo (nodeNames : List String) : AllocM α Unit :=
  modify fun s =>
    { s with config := app.configHelper.setNodeTopologyInfo nodeNames s.topologyW s.config }

/-- `TopologyApp::processAddNode`. -/
def processAddNode (newNode : Node) : AllocM α Unit := do
  let node ← onTopology (addNode app.mac app.order newNode)
  withAllocator app (·.addNode node)
  setNodeTopologyInfo app [node.name]

/-- `TopologyApp::processDelNode`. -/
def processDelNode (nodeName : String) (force : Bool) : AllocM α Unit := do
  let s ← get
  onTopology (delNode nodeName force)
  withAllocator app fun allocator =>
    match s.topologyW.getNode nodeName with
    | none => throw (.thrown .badOptionalAccess)
    | some oldNode => allocator.delNode oldNode
  modifyConfig (deleteAllNodeOverrides nodeName)

/-- `TopologyApp::processEditNode`. -/
def processEditNode (nodeName : String) (newNode : Node) : AllocM α Unit := do
  let s ← get
  onTopology (editNode nodeName newNode)
  withAllocator app fun allocator =>
    match s.topologyW.getNode nodeName with
    | none => return ()
    | some node => allocator.editNode node newNode
  setNodeTopologyInfo app [nodeName]

/-- Add a link to the topology and to the prefix allocation. -/
def addLinkWithPrefixes (newLink : Link) : AllocM α Link := do
  let link ← onTopology (addLink app.mac newLink)
  withAllocator app (·.addLink link)
  return link

/-- Update the config for a new link. -/
def configureLink (link : Link) : AllocM α Unit := do
  modify fun s =>
    { s with config := app.configHelper.onAddLink s.topologyW link s.config }
  setNodeTopologyInfo app [link.aNodeName, link.zNodeName]

/-- `TopologyApp::processAddLink`. -/
def processAddLink (newLink : Link) : AllocM α Unit := do
  let link ← addLinkWithPrefixes app newLink
  configureLink app link

/-- `TopologyApp::processDelLink`: the link leaves the config before the topology. -/
def processDelLink (aNodeName zNodeName : String) (force : Bool) : AllocM α Unit := do
  let s ← get
  match s.topologyW.getLink (buildLinkName aNodeName zNodeName) with
  | none => pure ()
  | some link => modifyConfig (deleteAutoLinkOverrides app.mac link)
  onTopology (delLink aNodeName zNodeName force)
  setNodeTopologyInfo app [aNodeName, zNodeName]

/-- `TopologyApp::processEditSite`. -/
def processEditSite (siteName : String) (newSite : Site) : AllocM α Unit := do
  let newSiteName := if newSite.name = "" then siteName else newSite.name
  onTopology (editSite siteName newSite)
  withAllocator app (·.editSite siteName newSite)
  let s ← get
  setNodeTopologyInfo app (app.order.toList (s.topologyW.assocNodes newSiteName))

/-- The requests that change the topology. -/
inductive Request where
  | addNode (node : Node)
  | delNode (nodeName : String) (force : Bool)
  | editNode (nodeName : String) (newNode : Node)
  | addLink (link : Link)
  | delLink (aNodeName zNodeName : String) (force : Bool)
  | addSite (site : Site)
  | delSite (siteName : String)
  | editSite (siteName : String) (newSite : Site)
  | allocatePrefixes
deriving DecidableEq

/-- The handler of a request. -/
def handle : Request → AllocM α Unit
  | .addNode node => processAddNode app node
  | .delNode nodeName force => processDelNode app nodeName force
  | .editNode nodeName newNode => processEditNode app nodeName newNode
  | .addLink link => processAddLink app link
  | .delLink aNodeName zNodeName force => processDelLink app aNodeName zNodeName force
  | .addSite site => onTopology (addSite site)
  | .delSite siteName => onTopology (delSite siteName)
  | .editSite siteName newSite => processEditSite app siteName newSite
  | .allocatePrefixes => withAllocator app (·.allocate)

/-- The answer to a request and the state after it.  Nothing catches an exception of
`processAllocatePrefixes`: it ends the controller. -/
def respond (request : Request) (s : AllocState α) : Option (Bool × AllocState α) :=
  match request, app.prefixAllocator with
  | .allocatePrefixes, none => some (false, s)
  | _, _ =>
    match (handle app request).run s with
    | .ok _ s' => some (true, s')
    | .error .neverReturns _ => none
    | .error _ s' => if request = .allocatePrefixes then none else some (false, s')

end Handlers

open Guarded EStateM

/-- The operation of the topology store that a request asks for. -/
def Request.op : Request → Option TopologyOp
  | .addNode node => some (.addNode node)
  | .delNode nodeName force => some (.delNode nodeName force)
  | .editNode nodeName newNode => some (.editNode nodeName newNode)
  | .addLink link => some (.addLink link)
  | .delLink aNodeName zNodeName force => some (.delLink aNodeName zNodeName force)
  | .addSite site => some (.addSite site)
  | .delSite siteName => some (.delSite siteName)
  | .editSite siteName newSite => some (.editSite siteName newSite)
  | .allocatePrefixes => none

section Handling

variable {α : Type} (app : TopologyApp α)

/-- The overrides when the topology store is called: only `processDelLink` has changed them before. -/
def precleared (request : Request) (s : AllocState α) : AutoNodesOverrides :=
  match request with
  | .delLink aNodeName zNodeName _ =>
    match s.topologyW.getLink (buildLinkName aNodeName zNodeName) with
    | none => s.config
    | some link => deleteAutoLinkOverrides app.mac link s.config
  | _ => s.config

/-- The topology store accepts a request and leaves a topology for the allocator's part. -/
inductive Applied (s : AllocState α) : Request → TopologyWrapper → AllocM α Unit → Prop where
  | addNode {newNode node : Node} {w : TopologyWrapper}
      (ran : (Terragraph.addNode app.mac app.order newNode).run s.topologyW = .ok node w) :
      Applied s (.addNode newNode) w (withAllocator app (·.addNode node))
  | delNode {nodeName : String} {force : Bool} {w : TopologyWrapper}
      (ran : (Terragraph.delNode nodeName force).run s.topologyW = .ok () w) :
      Applied s (.delNode nodeName force) w (withAllocator app fun allocator =>
        match s.topologyW.getNode nodeName with
        | none => throw (.thrown .badOptionalAccess)
        | some oldNode => allocator.delNode oldNode)
  | editNode {nodeName : String} {newNode : Node} {w : TopologyWrapper}
      (ran : (Terragraph.editNode nodeName newNode).run s.topologyW = .ok () w) :
      Applied s (.editNode nodeName newNode) w (withAllocator app fun allocator =>
        match s.topologyW.getNode nodeName with
        | none => return ()
        | some node => allocator.editNode node newNode)
  | addLink {newLink link : Link} {w : TopologyWrapper}
      (ran : (Terragraph.addLink app.mac newLink).run s.topologyW = .ok link w) :
      Applied s (.addLink newLink) w (withAllocator app (·.addLink link))
  | delLink {aNodeName zNodeName : String} {force : Bool} {w : TopologyWrapper}
      (ran : (Terragraph.delLink aNodeName zNodeName force).run s.topologyW = .ok () w) :
      Applied s (.delLink aNodeName zNodeName force) w (pure ())
  | addSite {site : Site} {w : TopologyWrapper}
      (ran : (Terragraph.addSite site).run s.topologyW = .ok () w) :
      Applied s (.addSite site) w (pure ())
  | delSite {siteName : String} {w : TopologyWrapper}
      (ran : (Terragraph.delSite siteName).run s.topologyW = .ok () w) :
      Applied s (.delSite siteName) w (pure ())
  | editSite {siteName : String} {newSite : Site} {w : TopologyWrapper}
      (ran : (Terragraph.editSite siteName newSite).run s.topologyW = .ok () w) :
      Applied s (.editSite siteName newSite) w (withAllocator app (·.editSite siteName newSite))
  | allocatePrefixes : Applied s .allocatePrefixes s.topologyW (withAllocator app (·.allocate))

variable {app} {s s' : AllocState α} {request : Request}

theorem run_processDelLink (aNodeName zNodeName : String) (force : Bool) :
    (processDelLink app aNodeName zNodeName force).run s =
      (do onTopology (delLink aNodeName zNodeName force)
          setNodeTopologyInfo app [aNodeName, zNodeName] : AllocM α Unit).run
        { s with config := precleared app (.delLink aNodeName zNodeName force) s } := by
  rw [processDelLink, run_bind, run_get, precleared]
  simp only
  cases s.topologyW.getLink (buildLinkName aNodeName zNodeName) with
  | none | some link => rfl

/-- The allocator or the config is updated by a program that only writes overrides. -/
def WritesConfig (finish : AllocM α Unit) : Prop :=
  ∀ t, ∃ config, finish.run t = .ok () { t with config := config }

variable (app request s)

/-- The topology store rejects the request, or the allocator runs and the config is written. -/
def Handled (outcome : EStateM.Result AllocFailure (AllocState α) Unit) : Prop :=
  (∃ op error w, request.op = some op ∧
    (exec app.mac app.order op).run s.topologyW = .error error w ∧
    outcome = .error (.thrown error)
      { s with topologyW := w, config := precleared app request s }) ∨
  ∃ w hook finish, Applied app s request w hook ∧ WritesConfig finish ∧
    outcome = (do hook; finish : AllocM α Unit).run
      { s with topologyW := w, config := precleared app request s }

variable {app request s} {op : TopologyOp}

theorem handled_stages {β : Type} {program : TopologyM β} {hook finish : β → AllocM α Unit}
    (asked : request.op = some op)
    (rejects : ∀ error w, program.run s.topologyW = .error error w →
      (exec app.mac app.order op).run s.topologyW = .error error w)
    (applies : ∀ result w, program.run s.topologyW = .ok result w →
      Applied app s request w (hook result))
    (writes : ∀ result, WritesConfig (finish result)) :
    Handled app s request ((do let result ← onTopology program
                               hook result
                               finish result : AllocM α Unit).run
      { s with config := precleared app request s }) := by
  rw [run_bind]
  cases ran : program.run s.topologyW with
  | error error w =>
    rw [(onTopology_eq_error (s := { s with config := precleared app request s })).mpr
      ⟨error, w, ran, rfl, rfl⟩]
    exact .inl ⟨op, error, w, asked, rejects error w ran, rfl⟩
  | ok result w =>
    rw [(onTopology_eq_ok (s := { s with config := precleared app request s })).mpr ⟨w, ran, rfl⟩]
    exact .inr ⟨w, hook result, finish result, applies result w ran, writes result, rfl⟩

theorem handled_without_hook {program : TopologyM Unit} {finish : AllocM α Unit}
    (asked : request.op = some op) (executes : exec app.mac app.order op = program)
    (applies : ∀ w, program.run s.topologyW = .ok () w → Applied app s request w (pure ()))
    (writes : WritesConfig finish) :
    Handled app s request ((do onTopology program
                               finish : AllocM α Unit).run
      { s with config := precleared app request s }) :=
  handled_stages asked (fun _ _ failed => executes ▸ failed) (fun _ w => applies w) fun _ => writes

variable (app request s)

theorem handled : Handled app s request ((handle app request).run s) := by
  have written : ∀ change : AllocState α → AutoNodesOverrides,
      WritesConfig (modify fun t => { t with config := change t } : AllocM α Unit) :=
    fun change t => ⟨change t, rfl⟩
  cases request with
  | addNode =>
    exact handled_stages rfl (fun _ _ => discard_eq_error) (fun _ _ => .addNode) fun _ => written _
  | delNode =>
    exact handled_stages rfl (fun _ _ => id) (fun _ _ => .delNode) fun _ => written _
  | editNode =>
    exact handled_stages rfl (fun _ _ => id) (fun _ _ => .editNode) fun _ => written _
  | addLink =>
    rw [handle, processAddLink]
    simp only [addLinkWithPrefixes, bind_assoc]
    exact handled_stages rfl (fun _ _ => discard_eq_error) (fun _ _ => .addLink)
      fun _ _ => ⟨_, rfl⟩
  | delLink =>
    rw [handle, run_processDelLink]
    exact handled_without_hook rfl rfl (fun _ => .delLink) (written _)
  | addSite site =>
    rw [handle, ← bind_pure_unit (x := onTopology (addSite site))]
    exact handled_without_hook rfl rfl (fun _ => .addSite) fun _ => ⟨_, rfl⟩
  | delSite siteName =>
    rw [handle, ← bind_pure_unit (x := onTopology (delSite siteName))]
    exact handled_without_hook rfl rfl (fun _ => .delSite) fun _ => ⟨_, rfl⟩
  | editSite =>
    exact handled_stages rfl (fun _ _ => id) (fun _ _ => .editSite) fun _ _ => ⟨_, rfl⟩
  | allocatePrefixes =>
    refine .inr ⟨s.topologyW, _, pure (), .allocatePrefixes, fun t => ⟨t.config, rfl⟩, ?_⟩
    exact congrArg (fun program : AllocM α Unit => program.run s) bind_pure_unit.symm

variable {app request s}

/-! ### The topology between store and allocator -/

variable {w : TopologyWrapper} {hook : AllocM α Unit}

theorem Applied.step (applied : Applied app s request w hook) :
    (request = .allocatePrefixes ∧ w = s.topologyW) ∨
      ∃ op, request.op = some op ∧ Step app.mac s.topologyW op w := by
  cases applied with
  | addNode ran => exact .inr ⟨_, rfl, app.order, run_discard ran⟩
  | delNode ran | editNode ran => exact .inr ⟨_, rfl, app.order, ran⟩
  | addLink ran => exact .inr ⟨_, rfl, app.order, run_discard ran⟩
  | delLink ran | addSite ran | delSite ran | editSite ran => exact .inr ⟨_, rfl, app.order, ran⟩
  | allocatePrefixes => exact .inl ⟨rfl, rfl⟩

theorem SiteInvariant.applied (sites : SiteInvariant s.topologyW)
    (applied : Applied app s request w hook) :
    SiteInvariant w := by
  rcases applied.step with ⟨_, rfl⟩ | ⟨_, _, taken⟩
  · exact sites
  · exact sites.step taken

/-- A rejected request changes nothing, except that a failing `delNode` may have removed the node
and some of its links. -/
theorem rejected_cases {mac : MacUtils} {order : SetOrder} {w w' : TopologyWrapper}
    (sites : SiteInvariant w) (asked : request.op = some op)
    {error : ControllerError} (failed : (exec mac order op).run w = .error error w') :
    w' = w ∨ ∃ i node, w.name2Node node.name = some i ∧ w.topology.nodes[i]? = some node ∧
      LinkFrame (w.removeNode i node) w' := by
  cases request with
  | addNode =>
    cases asked
    exact .inl ((atomic_addNode sites).discard _ _ failed)
  | delNode =>
    cases asked
    exact delNode_error sites failed
  | editNode nodeName newNode =>
    cases asked
    exact .inl (atomic_editNode w nodeName newNode _ _ failed)
  | addLink newLink =>
    cases asked
    exact .inl ((atomic_addLink mac w newLink).discard _ _ failed)
  | delLink aNodeName zNodeName force =>
    cases asked
    exact .inl (atomic_delLink w aNodeName zNodeName force _ _ failed)
  | addSite site =>
    cases asked
    exact .inl (atomic_addSite w site _ _ failed)
  | delSite siteName =>
    cases asked
    exact .inl (atomic_delSite w siteName _ _ failed)
  | editSite siteName newSite =>
    cases asked
    exact .inl (atomic_editSite w siteName newSite _ _ failed)
  | allocatePrefixes => cases asked

/-! ### Answers -/

/-- A call of the allocator returns or throws in a state with the property, if it ends. -/
def Ends (property : AllocState α → Prop) :
    EStateM.Result AllocFailure (AllocState α) Unit → Prop
  | .ok _ t => property t
  | .error .neverReturns _ => True
  | .error _ t => property t

variable {property : AllocState α → Prop}

theorem Ends.bind {first second : AllocM α Unit} (ended : Ends property (first.run s))
    (later : ∀ t, first.run s = .ok () t → property t → Ends property (second.run t)) :
    Ends property ((do first; second : AllocM α Unit).run s) := by
  rw [run_bind]
  cases ran : first.run s with
  | ok u t =>
    rw [ran] at ended
    exact later t ran ended
  | error =>
    rw [ran] at ended
    exact ended

/-- A property survives a request if it does not depend on the config, a rejected request keeps it,
and the allocator keeps it after an accepted one. -/
theorem respond_keeps {success : Bool}
    (answered : respond app request s = some (success, s')) (holds : property s)
    (unconfigured : ∀ t config, property t → property { t with config := config })
    (rejects : ∀ op error w, request.op = some op →
      (exec app.mac app.order op).run s.topologyW = .error error w →
        property { s with topologyW := w, config := precleared app request s })
    (applies : ∀ w hook, Applied app s request w hook → Ends property
      (hook.run { s with topologyW := w, config := precleared app request s })) :
    property s' := by
  have ended : Ends property ((handle app request).run s) := by
    rcases handled app s request with ⟨op, error, w, asked, failed, outcome⟩ |
      ⟨w, hook, finish, applied, writes, outcome⟩
    · rw [outcome]
      exact rejects op error w asked failed
    · rw [outcome]
      refine (applies w hook applied).bind ?_
      intro t _ kept
      obtain ⟨config, wrote⟩ := writes t
      rw [wrote]
      exact unconfigured t config kept
  unfold respond at answered
  split at answered
  · cases answered
    exact holds
  · split at answered
    · next ran =>
      cases answered
      rw [ran] at ended
      exact ended
    · cases answered
    · next failure t returns ran =>
      split at answered
      · cases answered
      · cases answered
        rw [ran] at ended
        cases failure with
        | thrown error | ipAddressFormat what => exact ended
        | neverReturns => exact (returns rfl).elim

/-- An answer to `allocatePrefixes` means that the allocator has returned, or that there is none. -/
theorem respond_allocatePrefixes {success : Bool}
    (answered : respond app .allocatePrefixes s = some (success, s')) :
    s' = s ∨ (withAllocator app (·.allocate)).run s = .ok () s' := by
  unfold respond at answered
  split at answered
  · cases answered
    exact .inl rfl
  · split at answered
    · next ran =>
      cases answered
      exact .inr ran
    · cases answered
    · cases answered

end Handling

end Terragraph
