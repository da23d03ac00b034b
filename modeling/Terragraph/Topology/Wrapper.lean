/-
Module: Terragraph.Topology.Wrapper
Purpose: The Thrift records of `Topology.thrift`, and the state of `TopologyWrapper` with its lookup
  and validation functions and those that change it.
Trusted boundary: human-reviewed data model and embedding of the C++ source
Main exports: Topology, ControllerError, validateLink, populateMaps, setLocation
-/
import Terragraph.Lib.KeyIndex
import Terragraph.Lib.Guarded

namespace Terragraph

/-!
Thrift enums are transported as integers, so a record may carry a value that is no member of
the enum.  The controller tests for the unset value `0` and for unknown values explicitly, hence
both have a constructor here.  Thrift `double` fields are exact rationals: the controller only
compares and copies them.
-/

/-- `enum NodeType`. -/
inductive NodeType where
  | unset
  | CN
  | DN
  | unknown (code : Int)
deriving DecidableEq, Repr, Inhabited

/-- The integer a node type is transported as. -/
def NodeType.toInt : NodeType → Int
  | .unset => 0
  | .CN => 1
  | .DN => 2
  | .unknown code => code

/-- Membership in `TEnumMapFactory<NodeType>::makeValuesToNamesMap()`. -/
def NodeType.named : NodeType → Bool
  | .CN | .DN => true
  | _ => false

/-- `enum LinkType`. -/
inductive LinkType where
  | WIRELESS
  | ETHERNET
  | unknown (code : Int)
deriving DecidableEq, Repr, Inhabited

/-- The integer a link type is transported as. -/
def LinkType.toInt : LinkType → Int
  | .WIRELESS => 1
  | .ETHERNET => 2
  | .unknown code => code

/-- `enum NodeStatusType`. -/
inductive NodeStatusType where
  | unset
  | OFFLINE
  | ONLINE
  | ONLINE_INITIATOR
  | unknown (code : Int)
deriving DecidableEq, Repr, Inhabited

/-- `struct Location`, with the defaults of the Thrift definition. -/
structure Location where
  latitude : Rat := 0
  longitude : Rat := 0
  altitude : Rat := 0
  accuracy : Rat := 40000000
deriving DecidableEq, Inhabited

/-- `struct Site`. -/
structure Site where
  name : String
  location : Location := {}
deriving DecidableEq, Inhabited

/-- `struct Node`.  `hasCpe` and `nodePrefix` are the optional fields `has_cpe` and `prefix`. -/
structure Node where
  name : String
  nodeType : NodeType := .unset
  macAddr : String := ""
  popNode : Bool := false
  status : NodeStatusType := .unset
  wlanMacAddrs : List String := []
  siteName : String := ""
  antAzimuth : Rat := 0
  antElevation : Rat := 0
  hasCpe : Option Bool := none
  nodePrefix : Option String := none
deriving DecidableEq, Inhabited

/-- `struct Link`. -/
structure Link where
  name : String := ""
  aNodeName : String
  zNodeName : String
  linkType : LinkType
  isAlive : Bool := false
  linkupAttempts : Int := 0
  aNodeMac : String := ""
  zNodeMac : String := ""
  isBackupCnLink : Option Bool := none
deriving DecidableEq, Inhabited

/-- `struct Zone`: the nodes of a prefix zone and the prefixes allocated to it. -/
structure Zone where
  nodeNames : Finset String
  zonePrefixes : Finset String
deriving DecidableEq

/-- `struct Topology`; of its config, only `deterministic_prefix_alloc_params.zones` is used. -/
structure Topology where
  name : String := ""
  nodes : List Node := []
  links : List Link := []
  sites : List Site := []
  zones : Option (String → Option Zone) := none

open Guarded Function KeyIndex

/-!
The wrapper owns the topology record and keeps five maps next to it.  Three of them send names to
raw pointers into the vectors `nodes`, `links` and `sites`; a pointer is modelled by the position
it points at, which is what the source itself computes before an erase (`node - &nodes[0]`).  Maps
are functions into `Option`, so two maps are equal when they have the same entries.

Everything that is only logged, and writing the topology to disk, is left out.
-/

/-- The exceptions of the controller: `std::invalid_argument` with its message, and
`std::bad_optional_access`. -/
inductive ControllerError where
  | invalidArgument (what : String)
  | badOptionalAccess
deriving DecidableEq, Repr, Inhabited

/-- `MacUtils::standardizeMac`, that is `folly::MacAddress(mac).toString()`: it throws
`invalid_argument` or returns the canonical form, which is never empty. -/
structure MacUtils where
  standardizeMac : String → Except ControllerError String
  standardizeMac_ne_empty : ∀ text mac, standardizeMac text = .ok mac → mac ≠ ""

/-- `ConfigHelper::getStandardizedMac`: a text that is no MAC address is kept. -/
def getStandardizedMac (mac : MacUtils) (text : String) : String :=
  if text = "" then text
  else
    match mac.standardizeMac text with
    | .ok standardized => standardized
    | .error _ => text

/-- A standardizer that knows the given canonical addresses and rejects every other text. -/
def MacUtils.ofCanonical (macs : List String) (nonempty : "" ∉ macs) : MacUtils where
  standardizeMac text :=
    if text ∈ macs then .ok text else .error (.invalidArgument ("Invalid MAC address: " ++ text))
  standardizeMac_ne_empty text mac standardized := by
    split at standardized
    · next known =>
      cases standardized
      intro empty
      rw [empty] at known
      exact nonempty known
    · cases standardized

/-- The order in which a `std::unordered_set<std::string>` is traversed, every element once. -/
structure SetOrder where
  toList : Finset String → List String
  nodup : ∀ names, (toList names).Nodup
  mem_toList : ∀ names name, name ∈ toList names ↔ name ∈ names

/-- Traversal in lexicographic order. -/
def SetOrder.sorted : SetOrder where
  toList := Ascending.listing
  nodup := Ascending.nodup_listing
  mem_toList _ _ := Ascending.mem_listing

/-- Traversal that visits one element before the others. -/
def SetOrder.first (name : String) : SetOrder where
  toList names :=
    if name ∈ names then name :: Ascending.listing (names.erase name) else Ascending.listing names
  nodup names := by
    split
    · simp [Ascending.nodup_listing]
    · exact Ascending.nodup_listing names
  mem_toList names other := by
    split
    · next isMember =>
      by_cases same : other = name
      · simp [same, isMember]
      · simp [same]
    · exact Ascending.mem_listing

/-- The members of `TopologyWrapper` that its functions read. -/
structure TopologyWrapper where
  topology : Topology
  name2Node : String → Option Nat
  name2Link : String → Option Nat
  name2Site : String → Option Nat
  mac2NodeName : String → Option String
  site2AssocNodes : String → Option (Finset String)
  createIntrasiteLinks : Bool

/-- A member function that may change the wrapper and throw, which keeps the changes made before. -/
abbrev TopologyM := EStateM ControllerError TopologyWrapper

/-- `TopologyWrapper::kMaxNumOfNodesPerSite`. -/
def kMaxNumOfNodesPerSite : Nat := 4

/-- `TopologyWrapper::kMaxNumOfDnDnLinks`. -/
def kMaxNumOfDnDnLinks : Nat := 2

/-- `TopologyWrapper::kMaxNumOfDnCnLinks`. -/
def kMaxNumOfDnCnLinks : Nat := 15

/-- `throw invalid_argument(what)` unless the condition is met. -/
def reject (violated : Prop) [Decidable violated] (what : String) : Except ControllerError Unit :=
  failIf violated (.invalidArgument what)

variable {what : String}

@[simp] theorem reject_eq_ok {violated : Prop} [Decidable violated] {u : Unit} :
    reject violated what = .ok u ↔ ¬ violated :=
  failIf_eq_ok

@[simp] theorem reject_bind_eq_ok {violated : Prop} [Decidable violated]
    {β : Type} {f : Unit → Except ControllerError β} {b : β} :
    (reject violated what >>= f) = .ok b ↔ ¬ violated ∧ f () = .ok b :=
  failIf_bind_eq_ok

/-- `TopologyWrapper::buildLinkName`. -/
def buildLinkName (aNodeName zNodeName : String) : String :=
  "link-" ++ aNodeName ++ "-" ++ zNodeName

/-- `TopologyWrapper::updateLink`: order the ends by name, with their MACs, and rebuild the name. -/
def updateLink (link : Link) : Link :=
  let link :=
    if link.zNodeName < link.aNodeName then
      { link with
        aNodeName := link.zNodeName
        zNodeName := link.aNodeName
        aNodeMac := link.zNodeMac
        zNodeMac := link.aNodeMac }
    else link
  { link with name := buildLinkName link.aNodeName link.zNodeName }

def MacUtils.standardizeGiven (mac : MacUtils) (text : String) : Except ControllerError String :=
  if text = "" then .ok "" else mac.standardizeMac text

/-- `TopologyWrapper::standardizeNodeMacs`. -/
def standardizeNodeMacs (mac : MacUtils) (node : Node) : Except ControllerError Node := do
  let macAddr ← mac.standardizeGiven node.macAddr
  let wlanMacAddrs ← node.wlanMacAddrs.mapM mac.standardizeMac
  return { node with macAddr, wlanMacAddrs }

/-- `TopologyWrapper::standardizeLinkMacs`. -/
def standardizeLinkMacs (mac : MacUtils) (link : Link) : Except ControllerError Link := do
  let aNodeMac ← mac.standardizeGiven link.aNodeMac
  let zNodeMac ← mac.standardizeGiven link.zNodeMac
  return { link with aNodeMac, zNodeMac }

/-- The MACs of a node that the index has to know: a non-empty `mac_addr` and the WLAN MACs. -/
def Node.macs (node : Node) : List String :=
  (if node.macAddr = "" then [] else [node.macAddr]) ++ node.wlanMacAddrs

namespace TopologyWrapper

/-! ### Lookups -/

variable (w : TopologyWrapper)

/-- The index of the nodes leads to each of them, and nowhere else. -/
abbrev ExactNodes : Prop := Exact Node.name w.topology.nodes w.name2Node

/-- The index of the links leads to each of them, and nowhere else. -/
abbrev ExactLinks : Prop := Exact Link.name w.topology.links w.name2Link

/-- `TopologyWrapper::getNode`. -/
def getNode (nodeName : String) : Option Node :=
  find w.topology.nodes w.name2Node nodeName

/-- `TopologyWrapper::getLink`, by link name. -/
def getLink (linkName : String) : Option Link :=
  find w.topology.links w.name2Link linkName

/-- `TopologyWrapper::getSite`. -/
def getSite (siteName : String) : Option Site :=
  find w.topology.sites w.name2Site siteName

/-- `TopologyWrapper::getLinksByNodeName`. -/
def getLinksByNodeName (nodeName : String) : List Link :=
  w.topology.links.filter fun link => link.aNodeName = nodeName ∨ link.zNodeName = nodeName

/-- `TopologyWrapper::getLinksByRadioMac`. -/
def getLinksByRadioMac (radioMac : String) : List Link :=
  if radioMac = "" then []
  else w.topology.links.filter fun link => link.aNodeMac = radioMac ∨ link.zNodeMac = radioMac

/-- `TopologyWrapper::getNbrNode`, for a link record. -/
def getNbrNode (myNodeName : String) (link : Link) : Option Node :=
  if link.zNodeName = myNodeName then w.getNode link.aNodeName
  else if link.aNodeName = myNodeName then w.getNode link.zNodeName
  else none

/-- `TopologyWrapper::getNbrNode`, for a link name. -/
def getNbrNodeByLinkName (myNodeName linkName : String) : Option Node :=
  (w.getLink linkName).bind (w.getNbrNode myNodeName)

/-- `TopologyWrapper::getNodeNamesBySiteName`. -/
def getNodeNamesBySiteName (siteName : String) : Option (Finset String) :=
  w.site2AssocNodes siteName

/-- The node type behind a name, whose optional the source dereferences. -/
def nodeTypeOf (nodeName : String) : Option NodeType :=
  (w.getNode nodeName).map (·.nodeType)

/-- Position and record behind `name2Node_.find(nodeName)`; throws when the node is missing. -/
def nodeRef (nodeName what : String) : Except ControllerError (Nat × Node) :=
  match w.name2Node nodeName with
  | none => .error (.invalidArgument what)
  | some i =>
    match w.topology.nodes[i]? with
    | none => .error (.invalidArgument what)
    | some node => .ok (i, node)

/-- Position and record behind `name2Link_.find(linkName)`. -/
def linkRef (linkName what : String) : Except ControllerError (Nat × Link) :=
  match w.name2Link linkName with
  | none => .error (.invalidArgument what)
  | some i =>
    match w.topology.links[i]? with
    | none => .error (.invalidArgument what)
    | some link => .ok (i, link)

/-- Position and record behind `name2Site_.find(siteName)`. -/
def siteRef (siteName what : String) : Except ControllerError (Nat × Site) :=
  match w.name2Site siteName with
  | none => .error (.invalidArgument what)
  | some i =>
    match w.topology.sites[i]? with
    | none => .error (.invalidArgument what)
    | some site => .ok (i, site)

variable {w}

theorem nodeRef_eq_ok {nodeName : String} {i : Nat} {node : Node} :
    w.nodeRef nodeName what = .ok (i, node) ↔
      w.name2Node nodeName = some i ∧ w.topology.nodes[i]? = some node := by
  unfold nodeRef
  cases stored : w.name2Node nodeName with
  | none => simp
  | some position => cases present : w.topology.nodes[position]? <;> grind

theorem linkRef_eq_ok {linkName : String} {i : Nat} {link : Link} :
    w.linkRef linkName what = .ok (i, link) ↔
      w.name2Link linkName = some i ∧ w.topology.links[i]? = some link := by
  unfold linkRef
  cases stored : w.name2Link linkName with
  | none => simp
  | some position => cases present : w.topology.links[position]? <;> grind

theorem siteRef_eq_ok {siteName : String} {i : Nat} {site : Site} :
    w.siteRef siteName what = .ok (i, site) ↔
      w.name2Site siteName = some i ∧ w.topology.sites[i]? = some site := by
  unfold siteRef
  cases stored : w.name2Site siteName with
  | none => simp
  | some position => cases present : w.topology.sites[position]? <;> grind

/-! ### Validation -/

/-- `TopologyWrapper::validateNodeName`. -/
def validateNodeName (nodeName : String) : Except ControllerError Unit := do
  reject (nodeName = "") "Node name cannot be empty"
  reject (w.name2Node nodeName ≠ none) ("Multiple nodes with same name " ++ nodeName)

/-- The check of one MAC in `validateNode`. -/
def validateNodeMac (macAddr : String) : Except ControllerError Unit :=
  reject (w.mac2NodeName macAddr ≠ none) ("Multiple nodes with same mac " ++ macAddr)

/-- `TopologyWrapper::validateNode`, which returns the changed node. -/
def validateNode (node : Node) : Except ControllerError Node := do
  w.validateNodeName node.name
  forM node.macs w.validateNodeMac
  let nodeType := if node.nodeType = .unset then .DN else node.nodeType
  reject (nodeType.named = false) ("Invalid node type: " ++ toString nodeType.toInt)
  let status := if node.status = .unset then .OFFLINE else node.status
  return { node with nodeType, status }

/-- `TopologyWrapper::validateLocation`: the error message, if the location is invalid. -/
def validateLocation (location : Location) : Option String :=
  if location.latitude < -90 ∨ location.latitude > 90 then
    some "Invalid latitude (valid range: -90 <= x <= 90)"
  else if location.longitude < -180 ∨ location.longitude > 180 then
    some "Invalid longitude (valid range: -180 <= x <= 180)"
  else if location.accuracy < 0 then
    some "Invalid accuracy (valid range: x >= 0)"
  else none

/-- `TopologyWrapper::validateSite`. -/
def validateSite (site : Site) : Except ControllerError Unit := do
  reject (site.name = "") "Site name cannot be empty"
  reject (w.name2Site site.name ≠ none) ("Multiple sites with same name " ++ site.name)
  match validateLocation site.location with
  | some errMsg => .error (.invalidArgument ("Site '" ++ site.name ++ "': " ++ errMsg))
  | none => .ok ()

/-- The radio a link uses at one of its nodes, as `validateNodeMaxLinks` reads it off. -/
def radioMacAt (link : Link) (nodeName : String) : String :=
  if link.aNodeName = nodeName then link.aNodeMac
  else if link.zNodeName = nodeName then link.zNodeMac
  else ""

/-- The wireless links that the per-type limits look at: those that name the radio of the new link
on either end, or all if it names none. -/
def sameRadioLinks (nodeName radioMac : String) : List Link :=
  (w.getLinksByNodeName nodeName).filter fun link =>
    link.linkType = .WIRELESS ∧
      ¬ (radioMac ≠ "" ∧ link.aNodeMac ≠ radioMac ∧ link.zNodeMac ≠ radioMac)

/-- The node at the other end, as `validateNodeMaxLinks` looks it up. -/
def nbrNodeName (link : Link) (nodeName : String) : String :=
  if link.aNodeName = nodeName then link.zNodeName else link.aNodeName

/-- `dnDnLinks` or `dnCnLinks`: the new link and those of the radio with an other end of the type.
-/
def linkNamesToType (nodeName : String) (newLink : Link) (nodeType : NodeType) : Finset String :=
  insert newLink.name
    (((w.sameRadioLinks nodeName (radioMacAt newLink nodeName)).filter fun link =>
      w.nodeTypeOf (nbrNodeName link nodeName) = some nodeType).map (·.name)).toFinset

/-- A link that is not marked `is_backup_cn_link`. -/
def isPrimary (link : Link) : Bool := link.isBackupCnLink ≠ some true

/-- The number of further wireless links on the radio (of the node, if the link names none). -/
def wirelessLinkCount (nodeName : String) (newLink : Link) : Nat :=
  let radioMac := radioMacAt newLink nodeName
  let allLinks := if radioMac = "" then w.getLinksByNodeName nodeName
    else w.getLinksByRadioMac radioMac
  (allLinks.filter fun link => link.linkType = .WIRELESS ∧ link.name ≠ newLink.name).length

/-- The checks of `validateNodeMaxLinks` that depend on the types of the two nodes. -/
def validateTypedMaxLinks (nodeName nbrName : String) (newLink : Link) :
    Except ControllerError Unit :=
  match w.nodeTypeOf nodeName, w.nodeTypeOf nbrName with
  | some .DN, some .DN =>
    reject ((w.linkNamesToType nodeName newLink .DN).card > kMaxNumOfDnDnLinks)
      ("Exceeded maximum supported DN-DN links (" ++ toString kMaxNumOfDnDnLinks ++
        ") with link `" ++ newLink.name ++ "`")
  | some .DN, some .CN =>
    reject ((w.linkNamesToType nodeName newLink .CN).card > kMaxNumOfDnCnLinks)
      ("Exceeded maximum supported DN-CN links (" ++ toString kMaxNumOfDnCnLinks ++
        ") with link `" ++ newLink.name ++ "`")
  | some .CN, some .DN =>
    reject (isPrimary newLink = true ∧
        ∃ link ∈ w.sameRadioLinks nodeName (radioMacAt newLink nodeName),
          link.name ≠ newLink.name ∧ isPrimary link = true)
      ("Cannot have multiple primary links to CN `" ++ nodeName ++ "` (failed with link `" ++
        newLink.name ++ "`)")
  | _, _ => .ok ()

/-- `TopologyWrapper::validateNodeMaxLinks`. -/
def validateNodeMaxLinks (nodeName nbrName : String) (newLink : Link) :
    Except ControllerError Unit :=
  if newLink.linkType ≠ .WIRELESS then .ok ()
  else do
    w.validateTypedMaxLinks nodeName nbrName newLink
    reject (w.wirelessLinkCount nodeName newLink ≥ kMaxNumOfDnCnLinks)
      ("Exceeded maximum supported links (" ++ toString kMaxNumOfDnCnLinks ++ ") with link `" ++
        newLink.name ++ "`")

/-- `TopologyWrapper::validateMaxLinks`. -/
def validateMaxLinks (newLink : Link) : Except ControllerError Unit := do
  w.validateNodeMaxLinks newLink.aNodeName newLink.zNodeName newLink
  w.validateNodeMaxLinks newLink.zNodeName newLink.aNodeName newLink

/-- The check of one end in `validateLink`: a non-empty MAC must belong to the node. -/
def validateLinkMac (side linkMac nodeName : String) : Except ControllerError Unit :=
  if linkMac = "" then .ok ()
  else match w.mac2NodeName linkMac with
  | none =>
    .error (.invalidArgument (side ++ "_node_mac `" ++ linkMac ++ "` does not exist"))
  | some owner =>
    reject (owner ≠ nodeName)
      (side ++ "_node_mac `" ++ linkMac ++ "` belongs to `" ++ owner ++ "`, but " ++ side ++
        "_node_name is `" ++ nodeName ++ "`")

/-- The link type check of `validateLink`, which empties the MACs of a wired link. -/
def validateLinkType (link : Link) : Except ControllerError Link :=
  match link.linkType with
  | .WIRELESS => .ok link
  | .ETHERNET => .ok { link with aNodeMac := "", zNodeMac := "" }
  | .unknown code =>
    .error (.invalidArgument ("Invalid link_type `" ++ toString code ++ "`"))

/-- `TopologyWrapper::validateLink` up to `validateMaxLinks`: the checks of this link alone. -/
def validateLinkFields (link : Link) : Except ControllerError Link := do
  reject (w.getNode link.aNodeName = none)
    ("a_node_name `" ++ link.aNodeName ++ "` does not exist")
  reject (w.getNode link.zNodeName = none)
    ("z_node_name `" ++ link.zNodeName ++ "` does not exist")
  reject (w.nodeTypeOf link.aNodeName = some .CN ∧ w.nodeTypeOf link.zNodeName = some .CN)
    "Cannot create CN-to-CN link"
  let link ← validateLinkType link
  w.validateLinkMac "a" link.aNodeMac link.aNodeName
  w.validateLinkMac "z" link.zNodeMac link.zNodeName
  reject (link.zNodeName ≤ link.aNodeName)
    ("a_node_name `" ++ link.aNodeName ++ "` should be lexicographically smaller than " ++
      "z_node_name `" ++ link.zNodeName ++ "`")
  let expectedLinkName := buildLinkName link.aNodeName link.zNodeName
  reject (link.name ≠ "" ∧ link.name ≠ expectedLinkName)
    ("Invalid link name `" ++ link.name ++ "`, expected format: " ++
      "`link-[a_node_name]-[z_node_name]`")
  let link := { link with name := expectedLinkName }
  reject (w.name2Link link.name ≠ none) ("Multiple links with same name " ++ link.name)
  return link

/-- `TopologyWrapper::validateLink` for a new link.  The final distance check only logs. -/
def validateLink (link : Link) : Except ControllerError Link := do
  let link ← w.validateLinkFields link
  w.validateMaxLinks link
  return link

/-! ### Updates of single members -/

variable (w)

/-- `topology_.nodes = nodes`, leaving the maps alone. -/
def withNodes (nodes : List Node) : TopologyWrapper :=
  { w with topology := { w.topology with nodes } }

/-- `topology_.links = links`, leaving the maps alone. -/
def withLinks (links : List Link) : TopologyWrapper :=
  { w with topology := { w.topology with links } }

/-- `topology_.sites = sites`, leaving the maps alone. -/
def withSites (sites : List Site) : TopologyWrapper :=
  { w with topology := { w.topology with sites } }

def modifyNode (i : Nat) (f : Node → Node) : TopologyWrapper :=
  w.withNodes (w.topology.nodes.modify i f)

def modifyLink (i : Nat) (f : Link → Link) : TopologyWrapper :=
  w.withLinks (w.topology.links.modify i f)

def modifySite (i : Nat) (f : Site → Site) : TopologyWrapper :=
  w.withSites (w.topology.sites.modify i f)

/-- `mac2NodeName_[mac] = nodeName` for every MAC of the list. -/
def indexMacs (mac2NodeName : String → Option String) (macs : List String) (nodeName : String) :
    String → Option String :=
  macs.foldl (fun index mac => update index mac (some nodeName)) mac2NodeName

/-- `mac2NodeName_.erase(mac)` for every MAC of the list. -/
def unindexMacs (mac2NodeName : String → Option String) (macs : List String) :
    String → Option String :=
  macs.foldl (fun index mac => update index mac none) mac2NodeName

/-- The association set of a site as `site2AssocNodes_[siteName]` reads it. -/
def assocNodes (siteName : String) : Finset String :=
  (w.site2AssocNodes siteName).getD ∅

def pushNode (node : Node) : TopologyWrapper :=
  let nodes := w.topology.nodes ++ [node]
  { w.withNodes nodes with name2Node := refresh (·.name) nodes w.name2Node }

def pushLink (link : Link) : TopologyWrapper :=
  let links := w.topology.links ++ [link]
  { w.withLinks links with name2Link := refresh (·.name) links w.name2Link }

def pushSite (site : Site) : TopologyWrapper :=
  let sites := w.topology.sites ++ [site]
  { w.withSites sites with name2Site := refresh (·.name) sites w.name2Site }

/-- Erase a node from the vector and from the map, and refresh the remaining pointers. -/
def eraseNode (nodeName : String) (i : Nat) : TopologyWrapper :=
  let nodes := w.topology.nodes.eraseIdx i
  { w.withNodes nodes with
    name2Node := refresh (·.name) nodes (update w.name2Node nodeName none) }

/-- Erase a link from the vector and from the map, and refresh the remaining pointers. -/
def eraseLink (linkName : String) (i : Nat) : TopologyWrapper :=
  let links := w.topology.links.eraseIdx i
  { w.withLinks links with
    name2Link := refresh (·.name) links (update w.name2Link linkName none) }

/-- Erase a site from the vector and from the map, and refresh the remaining pointers. -/
def eraseSite (siteName : String) (i : Nat) : TopologyWrapper :=
  let sites := w.topology.sites.eraseIdx i
  { w.withSites sites with
    name2Site := refresh (·.name) sites (update w.name2Site siteName none) }

def touchSite (siteName : String) : TopologyWrapper :=
  { w with site2AssocNodes :=
      update w.site2AssocNodes siteName (some (w.assocNodes siteName)) }

def dissociate (siteName nodeName : String) : TopologyWrapper :=
  { w with site2AssocNodes :=
      update w.site2AssocNodes siteName (some ((w.assocNodes siteName).erase nodeName)) }

def associate (siteName nodeName : String) : TopologyWrapper :=
  { w with site2AssocNodes :=
      update w.site2AssocNodes siteName (some (insert nodeName (w.assocNodes siteName))) }

end TopologyWrapper

open TopologyWrapper

/-! ### Sites of nodes -/

/-- The checks of `plugNodeToSite`. -/
def validateNodeSite (nodeName siteName : String) (w : TopologyWrapper) :
    Except ControllerError Unit := do
  reject (siteName = "") ("Empty site name for node " ++ nodeName)
  reject (w.name2Site siteName = none)
    ("Failed in associating node " ++ nodeName ++ " with unrecognized site " ++ siteName)
  reject ((w.assocNodes siteName).card ≥ kMaxNumOfNodesPerSite)
    ("Trying to associate more than " ++ toString kMaxNumOfNodesPerSite ++ " nodes to site: " ++
      siteName)

/-- `TopologyWrapper::plugNodeToSite`. -/
def plugNodeToSite (nodeName siteName : String) (validate : Bool) : TopologyM Unit := do
  check fun w => if validate then validateNodeSite nodeName siteName w else .ok ()
  modify (·.associate siteName nodeName)

/-- `TopologyWrapper::unplugNodeFromSite`. -/
def unplugNodeFromSite (nodeName : String) : TopologyM Unit := do
  let (i, node) ← check (·.nodeRef nodeName ("Unplug node with invalid node name: " ++ nodeName))
  modify fun w => if node.siteName = "" then w else w.dissociate node.siteName nodeName
  modify (·.modifyNode i fun node => { node with siteName := "" })

/-! ### Links -/

/-- `TopologyWrapper::addLink`.  The result is the link as it was stored. -/
def addLink (mac : MacUtils) (newLink : Link) : TopologyM Link := do
  let newLink ← check fun _ => standardizeLinkMacs mac newLink
  let newLink ← check (·.validateLink newLink)
  modify (·.pushLink newLink)
  return newLink

/-- `TopologyWrapper::delLink`. -/
def delLink (aNodeName zNodeName : String) (force : Bool) : TopologyM Unit := do
  let linkName := buildLinkName aNodeName zNodeName
  let (i, link) ← check (·.linkRef linkName ("Link `" ++ linkName ++ "` does not exist"))
  check fun _ => reject (force = false ∧ link.linkType = .WIRELESS ∧ link.isAlive = true)
    ("Link `" ++ linkName ++ "` is still alive. Bring it down before deleting it, or use the " ++
      "'force' option to bypass this check.")
  modify (·.eraseLink linkName i)

/-- One link after the other. -/
abbrev delLinks (links : List Link) (force : Bool) : TopologyM Unit :=
  forM links fun link => delLink link.aNodeName link.zNodeName force

/-- The inner loop body of `createSiteLinks`: a wired link to another node of the site, unless both
are CNs or it exists. -/
def createSiteLink (mac : MacUtils) (aNode : Node) (assocNodeName : String) : TopologyM Unit := do
  if aNode.name = assocNodeName then
    return
  let zNode ← check fun w => match w.getNode assocNodeName with
    | some node => .ok node
    | none => .error .badOptionalAccess
  if aNode.nodeType = .CN ∧ zNode.nodeType = .CN then
    return
  let link := updateLink
    { aNodeName := aNode.name, zNodeName := zNode.name, linkType := .ETHERNET, isAlive := true }
  let w ← get
  if w.name2Link link.name ≠ none then
    return
  let _ ← addLink mac link

/-- `TopologyWrapper::createSiteLinks`. -/
def createSiteLinks (mac : MacUtils) (order : SetOrder) (validate : Bool) (nodes : List Node) :
    TopologyM Unit := do
  if validate = false then
    return
  let w ← get
  forM (if nodes = [] then w.topology.nodes else nodes) fun node => do
    -- `site2AssocNodes_[...]` enters an empty set for a site that has none
    modify (·.touchSite node.siteName)
    let w ← get
    forM (order.toList (w.assocNodes node.siteName)) (createSiteLink mac node)

/-! ### Construction -/

/-- One iteration of the site loop of `populateMaps`. -/
def populateSite (validate : Bool) (site : Site) (i : Nat) : TopologyM Unit := do
  check fun w => if validate then w.validateSite site else .ok ()
  modify fun w => { w with name2Site := update w.name2Site site.name (some i) }

/-- One iteration of the node loop of `populateMaps`. -/
def populateNode (mac : MacUtils) (validate : Bool) (node : Node) (i : Nat) : TopologyM Unit := do
  let node ← check fun _ => standardizeNodeMacs mac node
  let node ← check fun w => if validate then w.validateNode node else .ok node
  modify (·.modifyNode i fun _ => node)
  modify fun w => { w with mac2NodeName := indexMacs w.mac2NodeName node.macs node.name }
  modify fun w => { w with name2Node := update w.name2Node node.name (some i) }
  plugNodeToSite node.name node.siteName validate

/-- One iteration of the first link loop of `populateMaps`.  The link is validated inside the
vector, so `validateMaxLinks` sees the filled-in name and the emptied MACs. -/
def populateLink (mac : MacUtils) (validate : Bool) (link : Link) (i : Nat) : TopologyM Unit := do
  let link ← check fun _ => standardizeLinkMacs mac link
  let link ← check fun w => if validate then w.validateLinkFields link else .ok link
  modify (·.modifyLink i fun _ => link)
  check fun w => if validate then w.validateMaxLinks link else .ok ()

/-- One iteration of the second link loop of `populateMaps`. -/
def indexLink (validate : Bool) (link : Link) (i : Nat) : TopologyM Unit := do
  check fun w => if validate then w.validateMaxLinks link else .ok ()
  modify fun w => { w with name2Link := update w.name2Link link.name (some i) }

/-- `TopologyWrapper::populateMaps`. -/
def populateMaps (mac : MacUtils) (validate : Bool) : TopologyM Unit := do
  modify fun w => { w with
    name2Node := fun _ => none
    name2Link := fun _ => none
    name2Site := fun _ => none
    mac2NodeName := fun _ => none
    site2AssocNodes := fun _ => none }
  let w ← get
  forM w.topology.sites.zipIdx fun entry => populateSite validate entry.1 entry.2
  forM w.topology.nodes.zipIdx fun entry => populateNode mac validate entry.1 entry.2
  forM w.topology.links.zipIdx fun entry => populateLink mac validate entry.1 entry.2
  let w ← get
  forM w.topology.links.zipIdx fun entry => indexLink validate entry.1 entry.2

/-- The wrapper before `populateMaps`: the given topology and empty maps. -/
def TopologyWrapper.ofTopology (topology : Topology) (createIntrasiteLinks : Bool) :
    TopologyWrapper where
  topology := topology
  name2Node := fun _ => none
  name2Link := fun _ => none
  name2Site := fun _ => none
  mac2NodeName := fun _ => none
  site2AssocNodes := fun _ => none
  createIntrasiteLinks := createIntrasiteLinks

/-- The constructor `TopologyWrapper(topology, topologyDir, validateTopology,
createIntrasiteLinks)`. -/
def construct (mac : MacUtils) (order : SetOrder) (topology : Topology)
    (validateTopology createIntrasiteLinks : Bool) : Except ControllerError TopologyWrapper :=
  let program : TopologyM Unit := do
    populateMaps mac validateTopology
    if createIntrasiteLinks then
      createSiteLinks mac order validateTopology []
  match program.run (.ofTopology topology createIntrasiteLinks) with
  | .ok _ w => .ok w
  | .error e _ => .error e

/-! ### MAC addresses of nodes -/

/-- `TopologyWrapper::setNodeMacByName`. -/
def setNodeMacByName (mac : MacUtils) (nodeName macAddr : String) (force : Bool) :
    TopologyM Unit := do
  let newMac ← check fun _ => mac.standardizeMac macAddr
  let (i, node) ← check (·.nodeRef nodeName ("Node `" ++ nodeName ++ "` does not exist"))
  check fun _ => reject (node.macAddr = newMac) "Node MAC address did not change"
  check fun w => match w.mac2NodeName newMac with
    | none => .ok ()
    | some owner => reject (owner ≠ nodeName)
        ("MAC address `" ++ newMac ++ "` already associated with " ++ owner)
  check fun _ => reject (force = false ∧ node.status ≠ .OFFLINE)
    ("Node `" ++ nodeName ++ "` is still ignited.")
  -- the old MAC leaves the index and the WLAN MACs; links that name it are not visited
  modify fun w => { w with mac2NodeName := update w.mac2NodeName node.macAddr none }
  modify (·.modifyNode i fun n =>
    { n with wlanMacAddrs := n.wlanMacAddrs.filter (· ≠ node.macAddr), macAddr := newMac })
  modify fun w => { w with mac2NodeName := update w.mac2NodeName newMac (some nodeName) }

def usesMacAt (link : Link) (nodeName linkMac : String) : Prop :=
  (link.aNodeName = nodeName ∧ link.aNodeMac = linkMac) ∨
    (link.zNodeName = nodeName ∧ link.zNodeMac = linkMac)

instance (link : Link) (nodeName linkMac : String) : Decidable (usesMacAt link nodeName linkMac) :=
  inferInstanceAs (Decidable (_ ∨ _))

def replaceMac (nodeName newMac : String) (link : Link) : Link :=
  if link.aNodeName = nodeName then { link with aNodeMac := newMac }
  else { link with zNodeMac := newMac }

/-- `TopologyWrapper::updateLinksMacs`. -/
def updateLinksMacs (nodeName oldMac newMac : String) (force : Bool) : TopologyM Unit := do
  check fun w => forM w.topology.links fun link =>
    reject (link.linkType = .WIRELESS ∧ usesMacAt link nodeName oldMac ∧ force = false ∧
        link.isAlive = true)
      ("Link `" ++ link.name ++ "` associated with MAC `" ++ oldMac ++
        "` is still alive. Bring it down before changing the MAC, or use the 'force' option to " ++
        "bypass this check.")
  modify fun w => w.withLinks (w.topology.links.map fun link =>
    if link.linkType = .WIRELESS ∧ usesMacAt link nodeName oldMac
    then replaceMac nodeName newMac link else link)

/-- `TopologyWrapper::changeNodeWlanMac`. -/
def changeNodeWlanMac (mac : MacUtils) (nodeName oldMacAddr newMacAddr : String) (force : Bool) :
    TopologyM Unit := do
  let oldMac ← check fun _ => mac.standardizeMac oldMacAddr
  let newMac ← check fun _ => mac.standardizeMac newMacAddr
  let (i, node) ← check (·.nodeRef nodeName ("Node `" ++ nodeName ++ "` does not exist"))
  check fun _ => reject (oldMac = newMac) "WLAN MAC address did not change"
  check fun _ => reject (oldMac ∉ node.wlanMacAddrs)
    ("WLAN MAC address `" ++ oldMac ++ "` does not belong to " ++ nodeName)
  check fun w => match w.mac2NodeName newMac with
    | none => .ok ()
    | some owner => .error (.invalidArgument
        ("WLAN MAC address `" ++ newMac ++ "` already associated with " ++ owner))
  updateLinksMacs nodeName oldMac newMac force
  modify (·.modifyNode i fun n =>
    { n with wlanMacAddrs := n.wlanMacAddrs.filter (· ≠ oldMac) ++ [newMac] })
  modify fun w => { w with mac2NodeName := update w.mac2NodeName oldMac none }
  modify fun w => { w with mac2NodeName := update w.mac2NodeName newMac (some nodeName) }

/-- The validation loop of `addNodeWlanMacs`: the standardized MACs, each once, in order. -/
def collectNewMacs (mac : MacUtils) (w : TopologyWrapper) :
    List String → List String → Except ControllerError (List String)
  | newMacs, [] => .ok newMacs
  | newMacs, wlanMac :: wlanMacs => do
    let stdWlanMac ← mac.standardizeMac wlanMac
    match w.mac2NodeName stdWlanMac with
    | some owner => .error (.invalidArgument
        ("WLAN MAC address `" ++ stdWlanMac ++ "` is already associated with " ++ owner))
    | none =>
      collectNewMacs mac w
        (if stdWlanMac ∈ newMacs then newMacs else newMacs ++ [stdWlanMac]) wlanMacs

/-- `TopologyWrapper::addNodeWlanMacs`. -/
def addNodeWlanMacs (mac : MacUtils) (nodeName : String) (wlanMacAddrs : List String) :
    TopologyM Unit := do
  let (i, _) ← check (·.nodeRef nodeName ("Node `" ++ nodeName ++ "` does not exist"))
  let newMacs ← check fun w => collectNewMacs mac w [] wlanMacAddrs
  modify (·.modifyNode i fun n => { n with wlanMacAddrs := n.wlanMacAddrs ++ newMacs })
  modify fun w => { w with mac2NodeName := indexMacs w.mac2NodeName newMacs nodeName }

/-- The validation loop of `deleteNodeWlanMacs`: the standardized MACs, with repetitions. -/
def validateMacsToDelete (mac : MacUtils) (w : TopologyWrapper) (nodeName : String)
    (nodeLinks : List Link) (force : Bool) (wlanMac : String) : Except ControllerError String := do
  let stdWlanMac ← mac.standardizeMac wlanMac
  match w.mac2NodeName stdWlanMac with
  | none => .error (.invalidArgument ("WLAN MAC address `" ++ stdWlanMac ++ "` does not exist"))
  | some owner =>
    reject (owner ≠ nodeName)
      ("WLAN MAC address `" ++ stdWlanMac ++ "` is associated with " ++ owner)
  forM nodeLinks fun link =>
    reject (force = false ∧ link.linkType = .WIRELESS ∧ link.isAlive = true ∧
        (link.aNodeMac = stdWlanMac ∨ link.zNodeMac = stdWlanMac))
      ("Link `" ++ link.name ++ "` associated with MAC `" ++ stdWlanMac ++
        "` is still alive. Bring it down before deleting the MAC, or use the 'force' option to " ++
        "bypass this check.")
  return stdWlanMac

/-- The body of the deletion loop of `deleteNodeWlanMacs` for one MAC. -/
def deleteNodeWlanMac (i : Nat) (nodeLinks : List Link) (force : Bool) (macAddr : String) :
    TopologyM Unit := do
  modify (·.modifyNode i fun n => { n with wlanMacAddrs := n.wlanMacAddrs.erase macAddr })
  modify fun w => { w with mac2NodeName := update w.mac2NodeName macAddr none }
  forM nodeLinks fun link =>
    if link.aNodeMac = macAddr ∨ link.zNodeMac = macAddr then
      delLink link.aNodeName link.zNodeName force
    else pure ()

/-- `TopologyWrapper::deleteNodeWlanMacs`. -/
def deleteNodeWlanMacs (mac : MacUtils) (nodeName : String) (wlanMacAddrs : List String)
    (force : Bool) : TopologyM Unit := do
  let (i, _) ← check (·.nodeRef nodeName ("Node `" ++ nodeName ++ "` does not exist"))
  let w ← get
  let nodeLinks := w.getLinksByNodeName nodeName
  let macsToDelete ← check fun w =>
    wlanMacAddrs.mapM (validateMacsToDelete mac w nodeName nodeLinks force)
  forM macsToDelete (deleteNodeWlanMac i nodeLinks force)

/-! ### Nodes -/

/-- `TopologyWrapper::addNode`.  The result is the node as it was stored. -/
def addNode (mac : MacUtils) (order : SetOrder) (newNode : Node) : TopologyM Node := do
  let newNode ← check fun _ => standardizeNodeMacs mac newNode
  let newNode ← check (·.validateNode newNode)
  plugNodeToSite newNode.name newNode.siteName true
  modify fun w => { w with mac2NodeName := indexMacs w.mac2NodeName newNode.macs newNode.name }
  modify (·.pushNode newNode)
  let w ← get
  if w.createIntrasiteLinks then
    createSiteLinks mac order true [newNode]
  return newNode

/-- The links that keep `delNode` from deleting without `force`: alive ones to other sites or
wireless. -/
def blocksDelNode (w : TopologyWrapper) (nodeName siteName : String) (link : Link) : Bool :=
  link.isAlive && !(link.linkType = .ETHERNET &&
    (w.getNbrNode nodeName link).any fun nbrNode => nbrNode.siteName = siteName)

/-- `TopologyWrapper::delNode`. -/
def delNode (nodeName : String) (force : Bool) : TopologyM Unit := do
  let (i, node) ← check (·.nodeRef nodeName ("Node `" ++ nodeName ++ "` does not exist"))
  check fun _ => reject (force = false ∧ node.status ≠ .OFFLINE)
    ("Node `" ++ nodeName ++ "` is still ignited. Use the 'force' option to bypass this check.")
  let w ← get
  let links := w.getLinksByNodeName nodeName
  check fun w => forM links fun link =>
    reject (force = false ∧ blocksDelNode w nodeName node.siteName link = true)
      ("Link `" ++ link.name ++ "` associated with node `" ++ nodeName ++ "` is still alive. " ++
        "Bring it down before deleting the node, or use the 'force' option to bypass this check.")
  modify fun w => { w with mac2NodeName := unindexMacs w.mac2NodeName node.macs }
  unplugNodeFromSite nodeName
  modify (·.eraseNode nodeName i)
  delLinks links true

/-- `iter->second = newName` for an entry of the MAC index that exists. -/
def renameMacOwner (newName : String) (mac2NodeName : String → Option String) (macAddr : String) :
    String → Option String :=
  if mac2NodeName macAddr = none then mac2NodeName
  else update mac2NodeName macAddr (some newName)

/-- Put a new name at the end that carries the old one, `a` before `z`, and canonicalize the link.
-/
def renameLinkEnd (nodeName newName : String) (link : Link) : Link :=
  updateLink (if link.aNodeName = nodeName then { link with aNodeName := newName }
    else { link with zNodeName := newName })

/-- The link loop of `editNode` for one link: looked up by its old name, rewritten, entered under
its new name and erased under the old one. -/
def renameLink (nodeName newName : String) (w : TopologyWrapper) (link : Link) :
    TopologyWrapper :=
  match w.name2Link link.name with
  | none => w
  | some i =>
    match w.topology.links[i]? with
    | none => w
    | some old =>
      { w.modifyLink i (renameLinkEnd nodeName newName) with
        name2Link := update
          (update w.name2Link (renameLinkEnd nodeName newName old).name (some i))
          link.name none }

/-- The part of `editNode` that gives the node at position `i` a new name. -/
def renameNode (nodeName newName : String) (i : Nat) (node : Node) (w : TopologyWrapper) :
    TopologyWrapper :=
  let mac2NodeName := (node.macAddr :: node.wlanMacAddrs).foldl (renameMacOwner newName)
    w.mac2NodeName
  let site2AssocNodes := match w.site2AssocNodes node.siteName with
    | none => w.site2AssocNodes
    | some names => update w.site2AssocNodes node.siteName
        (some (insert newName (names.erase nodeName)))
  let w := { w with mac2NodeName, site2AssocNodes }
  let w := (w.getLinksByNodeName nodeName).foldl (renameLink nodeName newName) w
  { w.modifyNode i (fun n => { n with name := newName }) with
    name2Node := update (update w.name2Node newName (some i)) nodeName none }

/-- `newNode.node_type` differs from the stored type and is a member of the enum. -/
def hasNewType (node newNode : Node) : Prop :=
  newNode.nodeType ≠ node.nodeType ∧ newNode.nodeType.named = true

instance (node newNode : Node) : Decidable (hasNewType node newNode) :=
  inferInstanceAs (Decidable (_ ∧ _))

/-- For backwards compatibility the others count as changed only if `site_name` matches. -/
def hasMiscProps (node newNode : Node) : Prop :=
  newNode.siteName = node.siteName ∧
    (newNode.popNode ≠ node.popNode ∨ newNode.antAzimuth ≠ node.antAzimuth ∨
      newNode.antElevation ≠ node.antElevation ∨ newNode.hasCpe ≠ node.hasCpe)

instance (node newNode : Node) : Decidable (hasMiscProps node newNode) :=
  inferInstanceAs (Decidable (_ ∧ _))

/-- The changes of `editNode` to the node record itself, apart from its name. -/
def editProps (newNode node : Node) : Node :=
  let edited := if hasMiscProps node newNode then
      { node with
        popNode := newNode.popNode
        antAzimuth := newNode.antAzimuth
        antElevation := newNode.antElevation
        hasCpe := newNode.hasCpe }
    else node
  if hasNewType node newNode then { edited with nodeType := newNode.nodeType } else edited

/-- `TopologyWrapper::editNode`. -/
def editNode (nodeName : String) (newNode : Node) : TopologyM Unit := do
  let (i, node) ← check (·.nodeRef nodeName ("Node `" ++ nodeName ++ "` does not exist"))
  check fun w => if newNode.name = nodeName then .ok () else w.validateNodeName newNode.name
  check fun w => reject (hasNewType node newNode ∧ w.getLinksByNodeName nodeName ≠ [])
    ("Cannot change node type for `" ++ nodeName ++ "` until all links are deleted")
  check fun _ => reject
    (newNode.name = nodeName ∧ ¬ hasNewType node newNode ∧ ¬ hasMiscProps node newNode)
    ("No changes to make to node `" ++ nodeName ++ "`")
  modify (·.modifyNode i (editProps newNode))
  modify fun w => if newNode.name = nodeName then w
    else renameNode nodeName newNode.name i node w

/-- `TopologyWrapper::setNodePrefix`, for a prefix that is already in text form. -/
def setNodePrefix (nodeName : String) (nodePrefix : Option String) : TopologyM Unit := do
  let (i, _) ← check (·.nodeRef nodeName ("Node `" ++ nodeName ++ "` does not exist"))
  modify (·.modifyNode i fun n => { n with nodePrefix })

/-- `TopologyWrapper::setPrefixZones`. -/
def setPrefixZones (zones : String → Option Zone) : TopologyM Unit :=
  modify fun w => { w with topology := { w.topology with zones := some zones } }

/-! ### Sites -/

/-- `TopologyWrapper::addSite`. -/
def addSite (newSite : Site) : TopologyM Unit := do
  check (·.validateSite newSite)
  modify (·.pushSite newSite)

/-- `TopologyWrapper::delSite`. -/
def delSite (siteName : String) : TopologyM Unit := do
  let (i, _) ← check (·.siteRef siteName ("Site `" ++ siteName ++ "` does not exist"))
  check fun w => reject (w.assocNodes siteName ≠ ∅)
    ("Site `" ++ siteName ++ "` is still associated with nodes! Delete nodes and retry")
  modify (·.eraseSite siteName i)

/-- The site loop of `editSite`: nodes of the association set get the new site name. -/
def moveNodesToSite (names : Finset String) (newName : String) (w : TopologyWrapper) :
    TopologyWrapper :=
  w.withNodes (w.topology.nodes.mapIdx fun i node =>
    if ∃ name ∈ names, w.name2Node name = some i then { node with siteName := newName } else node)

/-- The part of `editSite` that gives the site at position `i` a new name. -/
def renameSite (siteName newName : String) (i : Nat) (w : TopologyWrapper) : TopologyWrapper :=
  let w := match w.site2AssocNodes siteName with
    | none => w
    | some names =>
      { moveNodesToSite names newName w with
        site2AssocNodes := update
          (update w.site2AssocNodes newName (some names)) siteName none }
  { w.modifySite i (fun site => { site with name := newName }) with
    name2Site := update (update w.name2Site newName (some i)) siteName none }

/-- `TopologyWrapper::editSite`. -/
def editSite (siteName : String) (newSite : Site) : TopologyM Unit := do
  let (i, site) ← check (·.siteRef siteName ("Site `" ++ siteName ++ "` does not exist"))
  let hasNewName := newSite.name ≠ site.name ∧ newSite.name ≠ ""
  check fun w => reject (hasNewName ∧ w.name2Site newSite.name ≠ none)
    ("New site name `" ++ newSite.name ++ "` already exists")
  -- new locations with only default fields are ignored
  let hasNewLocation := newSite.location ≠ site.location ∧ newSite.location ≠ {}
  check fun _ => reject ((¬ hasNewName ∧ ¬ hasNewLocation) ∨ site = newSite)
    ("No changes to make to site `" ++ siteName ++ "`")
  check fun _ => match validateLocation newSite.location with
    | some errMsg => reject hasNewLocation errMsg
    | none => .ok ()
  modify fun w => if hasNewLocation
    then w.modifySite i fun site => { site with location := newSite.location } else w
  modify fun w => if hasNewName then renameSite siteName newSite.name i w else w

/-! ### Reported state -/

/-- Write through `name2Link_.find(linkName)`; the result says whether the link exists. -/
def writeLink (linkName : String) (f : Link → Link) : TopologyM Bool := do
  let w ← get
  match w.name2Link linkName with
  | none => return false
  | some i =>
    modify (·.modifyLink i f)
    return true

/-- `TopologyWrapper::setLinkStatus`. -/
def setLinkStatus (linkName : String) (alive : Bool) : TopologyM Bool :=
  writeLink linkName fun link => { link with isAlive := alive }

/-- `TopologyWrapper::bumpLinkupAttempts`. -/
def bumpLinkupAttempts (linkName : String) : TopologyM Bool :=
  writeLink linkName fun link => { link with linkupAttempts := link.linkupAttempts + 1 }

/-- `TopologyWrapper::resetLinkupAttempts`. -/
def resetLinkupAttempts (linkName : String) : TopologyM Bool :=
  writeLink linkName fun link => { link with linkupAttempts := 0 }

/-- `TopologyWrapper::setNodeStatus`. -/
def setNodeStatus (nodeName : String) (status : NodeStatusType) : TopologyM Bool := do
  let w ← get
  match w.name2Node nodeName with
  | none => return false
  | some i =>
    modify (·.modifyNode i fun node => { node with status })
    return true

/-- `TopologyWrapper::getNodeNameByMac`. -/
def TopologyWrapper.getNodeNameByMac (w : TopologyWrapper) (mac : MacUtils) (macAddr : String) :
    Option String :=
  if macAddr = "" then none
  else match mac.standardizeMac macAddr with
  | .error _ => none
  | .ok stdMac => w.mac2NodeName stdMac

/-- `TopologyWrapper::getNodeByMac`. -/
def TopologyWrapper.getNodeByMac (w : TopologyWrapper) (mac : MacUtils) (nodeMac : String) :
    Option Node :=
  (w.getNodeNameByMac mac nodeMac).bind w.getNode

/-- The site whose location `setLocation` overwrites, if the new one is valid and more accurate. -/
def TopologyWrapper.siteToLocate (w : TopologyWrapper) (mac : MacUtils) (nodeMac : String)
    (location : Location) : Option Nat := do
  let node ← w.getNodeByMac mac nodeMac
  let i ← w.name2Site node.siteName
  let site ← w.topology.sites[i]?
  if location.accuracy ≥ site.location.accuracy then none
  else if validateLocation location ≠ none then none
  else some i

/-- `TopologyWrapper::setLocation`. -/
def setLocation (mac : MacUtils) (nodeMac : String) (location : Location) : TopologyM Bool := do
  let w ← get
  match w.siteToLocate mac nodeMac location with
  | none => return false
  | some i =>
    modify (·.modifySite i fun site => { site with location })
    return true

end Terragraph
