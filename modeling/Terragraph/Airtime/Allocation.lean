/-
Module: Terragraph.Airtime.Allocation
Purpose: `BandwidthAllocationHelper`: the share of its airtime that a DN gives to each neighbour,
  and which wireless links get an entry.
Trusted boundary: Boost's shortest paths, the order of unordered maps and `double` are parameters
Main exports: Double, computeAirtimes, links_covered_iff
-/
import Terragraph.Topology.Links

namespace Terragraph.Airtime

open TopologyWrapper Function

/-!
The counts of clients are `double`s, since they are rebalanced.  The model is generic in that type;
`Rat` is the instance in which nothing is rounded until a share is stored as an integer.
-/

/-- The operations on `double` that the helper uses; `toInt16` is `static_cast<int16_t>`. -/
class Double (R : Type) extends Add R, Sub R, Mul R, Div R, Max R, LT R, NatCast R, IntCast R where
  decidableLt : DecidableLT R
  toInt16 : R → Int

instance Double.toDecidableLT {R : Type} [Double R] : DecidableLT R := Double.decidableLt

instance : Double Rat where
  decidableLt := inferInstance
  toInt16 x := if 0 ≤ x then x.floor else x.ceil

/-- `int16_t` addition. -/
def addInt16 (a b : Int) : Int := (a + b).bmod (2 ^ 16)

def MAX_HOPS_FROM_POP : Nat := 100

def TX_MIN : Int := 200

def TX_MAX : Int := 8000

def RX_MIN : Int := 200

def RX_MAX : Int := 8000

def INVALID_AIRTIME : Int := -1

/-! ### The graph -/

section Graph

variable (w : TopologyWrapper)

/-- The vertex property `dn_t`. -/
def isDn (name : String) : Bool := w.nodeTypeOf name = some .DN

/-- The vertex property `pop_t`. -/
def isPop (name : String) : Bool := (w.getNode name).any (·.popNode)

/-- `boost::adjacent_vertices`: the other ends of the links of a node, in the order of the links. -/
def adjacentVertices (name : String) : List String :=
  (w.getLinksByNodeName name).map (nbrNodeName · name)

/-- `boost::edge`: the first link between two nodes. -/
def edge (name nbr : String) : Option Link :=
  (w.getLinksByNodeName name).find? fun link => nbrNodeName link name = nbr

def getWirelessDnNbrs (name : String) : List String :=
  (adjacentVertices w name).filter fun nbr =>
    isDn w nbr ∧ (edge w name nbr).any fun link => link.linkType = .WIRELESS

def isYStreet (wirelessDnNbrs : List String) : Bool := 1 < wirelessDnNbrs.length

def getNbrNodes (name : String) : List Node := (adjacentVertices w name).filterMap w.getNode

def getPopNodeNames : List String := (w.topology.nodes.filter (·.popNode)).map (·.name)

def getDNs : List Node := w.topology.nodes.filter fun node => node.nodeType = .DN

def getCNs : List Node := w.topology.nodes.filter fun node => node.nodeType = .CN

end Graph

/-! ### The shares of the nodes -/

/-- `struct DnAirtimeData`. -/
structure DnAirtimeData (R : Type) where
  downstreamCNs : R
  localCNs : R
  remoteCNs : R
  peerCNs : R
  dnDnFairtimeMap : String → Option Int
  perCnFairtime : Int

/-- A map of `DnAirtimeData`; a missing key reads as the default record. -/
abbrev DnAirtimeDataMap (R : Type) := String → DnAirtimeData R

section Shares

variable {R : Type} [Double R]

/-- A default-constructed record. -/
def DnAirtimeData.empty : DnAirtimeData R where
  downstreamCNs := (0 : Nat)
  localCNs := (0 : Nat)
  remoteCNs := (0 : Nat)
  peerCNs := (0 : Nat)
  dnDnFairtimeMap _ := none
  perCnFairtime := 0

def DnAirtimeData.setShare (data : DnAirtimeData R) (nbr : String) (share : Int) :
    DnAirtimeData R :=
  { data with dnDnFairtimeMap := update data.dnDnFairtimeMap nbr (some share) }

/-- Sets the share of the first neighbour, if there is one. -/
def DnAirtimeData.setFirstShare (data : DnAirtimeData R) (dnNbrs : List String) (share : Int) :
    DnAirtimeData R :=
  match dnNbrs with
  | [] => data
  | nbr :: _ => data.setShare nbr share

def DnAirtimeDataMap.modify (dnData : DnAirtimeDataMap R) (name : String)
    (change : DnAirtimeData R → DnAirtimeData R) : DnAirtimeDataMap R :=
  update dnData name (change (dnData name))

/-- One DN in `assignEqualAirtimeAllSectors`. -/
def equalShares (dnNbrs : List String) (data : DnAirtimeData R) : DnAirtimeData R :=
  if isYStreet dnNbrs then
    dnNbrs.foldl (fun data nbr => data.setShare nbr ((10000 / dnNbrs.length : Nat) : Int)) data
  else data.setFirstShare dnNbrs 10000

def assignEqualAirtimeAllSectors (w : TopologyWrapper) : DnAirtimeDataMap R :=
  (getDNs w).foldl
    (fun dnData node => DnAirtimeDataMap.modify dnData node.name
      (equalShares (getWirelessDnNbrs w node.name)))
    fun _ => .empty

/-- The nodes on the path that Dijkstra's algorithm finds from a POP to a node, if any, and the
orders in which `dnUplinkNbrMap` and `adjDownlinkBw` are traversed. -/
structure Traversal where
  pathNodes : String → String → Finset String
  uplinkOrder : SetOrder
  adjustedOrder : SetOrder

variable (w : TopologyWrapper) (traversal : Traversal) (ulDlRatio : R)

/-- `shortestPaths[pop][node]`; there is no entry for a POP node. -/
def shortestPaths (pop name : String) : Finset String :=
  if pop ∈ getPopNodeNames w ∧ ¬ isPop w name then traversal.pathNodes pop name else ∅

/-- `bestPops[node]`. -/
def bestPop (name : String) : String :=
  if isPop w name then name
  else
    ((getPopNodeNames w).foldl
      (fun best pop =>
        let size := (shortestPaths w traversal pop name).card
        if size < best.2 then (pop, size) else best)
      ("", MAX_HOPS_FROM_POP)).1

def downstreamCount (name : String) : Nat :=
  (getCNs w).countP fun user =>
    name ∈ shortestPaths w traversal (bestPop w traversal user.name) user.name

def localCount (name : String) : Nat :=
  (getCNs w).countP fun user => (edge w name user.name).isSome

/-- The first two loops over the DNs. -/
def countCNs : DnAirtimeDataMap R :=
  (getDNs w).foldl
    (fun dnData node => DnAirtimeDataMap.modify dnData node.name fun data =>
      { data with
        downstreamCNs := (downstreamCount w traversal node.name : R)
        localCNs := (localCount w node.name : R)
        remoteCNs := (downstreamCount w traversal node.name : R) - (localCount w node.name : R) })
    fun _ => .empty

/-- `yStreetNodes[dn]`. -/
def yStreetNodes (name : String) : List String :=
  if isPop w name then []
  else if isYStreet (getWirelessDnNbrs w name) then getWirelessDnNbrs w name else []

/-- `dnUplinkNbrMap[dn]`. -/
def dnUplinkNbr (name : String) : Option String :=
  if isDn w name ∧ ¬ isPop w name then
    match getWirelessDnNbrs w name with
    | [nbr] =>
      if nbr ∈ shortestPaths w traversal (bestPop w traversal name) name ∧
          0 < localCount w name then
        some nbr
      else none
    | _ => none
  else none

/-- The keys of `dnUplinkNbrMap`. -/
def uplinkDns : Finset String :=
  ((getDNs w).map (·.name)).toFinset.filter fun name => dnUplinkNbr w traversal name ≠ none

/-- `dnDownlinkNbrMap[dn]`: the last DN written for the neighbour. -/
def dnDownlinkNbr (name : String) : Option String :=
  ((getDNs w).reverse.find? fun node => dnUplinkNbr w traversal node.name = some name).map (·.name)

/-- The maps that the rebalancing writes. -/
structure Rebalanced (R : Type) where
  dnData : DnAirtimeDataMap R
  adjDownlinkBw : String → Option R
  uplinkBwReqMap : String → Option R

/-- `1.0 - (dnData[pop].downstreamCNs - dnData[dn].downstreamCNs) / dnData[pop].downstreamCNs`. -/
def totalDownlinkBwReq (dnData : DnAirtimeDataMap R) (pop dn : String) : R :=
  ((1 : Nat) : R) -
    ((dnData pop).downstreamCNs - (dnData dn).downstreamCNs) / (dnData pop).downstreamCNs

/-- Makes room for the uplink traffic of one DN, at its neighbour. -/
def adjustNbr (state : Rebalanced R) (dn : String) : Rebalanced R :=
  match dnUplinkNbr w traversal dn with
  | none => state
  | some nbrDn =>
    let dnData := state.dnData
    let pop := bestPop w traversal dn
    let downlinkBwPctPerCn := ((1 : Nat) : R) / (dnData pop).downstreamCNs
    let uplinkBwPctPerCn := downlinkBwPctPerCn / (((1 : Nat) : R) - ulDlRatio) * ulDlRatio
    let totalUplinkBw := (dnData dn).localCNs * uplinkBwPctPerCn
    let totalNbrDnDownlinkBw := (dnData nbrDn).localCNs * downlinkBwPctPerCn
    let uplinkBwReq := ((1 : Nat) : R) - (totalUplinkBw - totalNbrDnDownlinkBw)
    if totalNbrDnDownlinkBw < totalUplinkBw then
      let adj := (dnData nbrDn).remoteCNs / uplinkBwReq - (dnData nbrDn).remoteCNs
      { dnData := DnAirtimeDataMap.modify dnData nbrDn fun data =>
          { data with downstreamCNs := data.downstreamCNs + adj }
        adjDownlinkBw := update state.adjDownlinkBw nbrDn (some adj)
        uplinkBwReqMap := update state.uplinkBwReqMap nbrDn (some uplinkBwReq) }
    else state

def adjustNbrs (dnData : DnAirtimeDataMap R) : Rebalanced R :=
  (traversal.uplinkOrder.toList (uplinkDns w traversal)).foldl (adjustNbr w traversal ulDlRatio)
    ⟨dnData, fun _ => none, fun _ => none⟩

def backfilled (p adjNode : String) : Finset String :=
  (shortestPaths w traversal p adjNode).filter fun name =>
    ¬ (name = adjNode ∨ dnUplinkNbr w traversal name ≠ none)

/-- Adds the additional clients of an adjusted node to the nodes before it. -/
def backfillNode (state : Rebalanced R) (p : String) (dnData : DnAirtimeDataMap R)
    (adjNode : String) : DnAirtimeDataMap R :=
  let bw := (state.adjDownlinkBw adjNode).getD (0 : Nat)
  let pop := bestPop w traversal adjNode
  if (state.uplinkBwReqMap adjNode).getD (0 : Nat) < totalDownlinkBwReq dnData pop adjNode then
    fun name =>
      if name ∈ backfilled w traversal p adjNode then
        { dnData name with
          remoteCNs := (dnData name).remoteCNs + bw
          downstreamCNs := (dnData name).downstreamCNs + bw }
      else dnData name
  else dnData

/-- The keys of `adjDownlinkBw`. -/
def adjustedDns (state : Rebalanced R) : Finset String :=
  ((getDNs w).map (·.name)).toFinset.filter fun name => (state.adjDownlinkBw name).isSome

def backfill (state : Rebalanced R) : DnAirtimeDataMap R :=
  (getPopNodeNames w).foldl
    (fun dnData p => (traversal.adjustedOrder.toList (adjustedDns w state)).foldl
      (backfillNode w traversal state p) dnData)
    state.dnData

/-- Ideal airtimes for UL DN sectors. -/
def configureUplink (dnData : DnAirtimeDataMap R) (dn : String) : DnAirtimeDataMap R :=
  if ((0 : Nat) : R) < (dnData dn).localCNs then
    let pop := bestPop w traversal dn
    DnAirtimeDataMap.modify dnData dn fun data =>
      { data with
        remoteCNs := (dnData pop).downstreamCNs - data.localCNs
        downstreamCNs := (dnData pop).downstreamCNs }
  else dnData

def configureUplinks (dnData : DnAirtimeDataMap R) : DnAirtimeDataMap R :=
  (traversal.uplinkOrder.toList (uplinkDns w traversal)).foldl (configureUplink w traversal) dnData

/-- The records and the set `pctComputed`. -/
structure Sharing (R : Type) where
  dnData : DnAirtimeDataMap R
  pctComputed : Finset String

/-- A Y-street DN and one of its children. -/
def shareWithChild (name : String) (totalDownlinkCns : R) (state : Sharing R) (n : String) :
    Sharing R :=
  let downstream := ((10000 : Nat) : R) * (state.dnData n).downstreamCNs
  let total := totalDownlinkCns - (state.dnData name).localCNs
  let dnData := DnAirtimeDataMap.modify state.dnData name fun data =>
    data.setShare n (Double.toInt16 (downstream / totalDownlinkCns))
  let dnData := DnAirtimeDataMap.modify dnData n fun data =>
    data.setFirstShare (getWirelessDnNbrs w n) (Double.toInt16 (downstream / total))
  { dnData := DnAirtimeDataMap.modify dnData n fun data => { data with peerCNs := (0 : Nat) }
    pctComputed := insert n state.pctComputed }

def shareYStreet (state : Sharing R) (name : String) : Sharing R :=
  let totalDownlinkCns := (yStreetNodes w name).foldl
    (fun total n => total + (state.dnData n).downstreamCNs) (state.dnData name).localCNs
  let state := (yStreetNodes w name).foldl (shareWithChild w name totalDownlinkCns) state
  { state with
    dnData := DnAirtimeDataMap.modify state.dnData name fun data =>
      { data with peerCNs := (0 : Nat) } }

/-- A DN with at most one wireless DN neighbour. -/
def sharePointToPoint (adjDownlinkBw : String → Option R) (dnNbrs : List String)
    (state : Sharing R) (name : String) : Sharing R :=
  let dnData := DnAirtimeDataMap.modify state.dnData name fun data =>
    data.setFirstShare dnNbrs (Double.toInt16
      (((10000 : Nat) : R) * data.remoteCNs / max ((1 : Nat) : R) data.downstreamCNs))
  let peerCNs : R :=
    if (adjDownlinkBw name).isSome then
      (dnData ((dnDownlinkNbr w traversal name).getD "")).localCNs
    else (0 : Nat)
  { state with
    dnData := DnAirtimeDataMap.modify dnData name fun data => { data with peerCNs } }

/-- One DN in the last loop. -/
def shareNode (adjDownlinkBw : String → Option R) (state : Sharing R) (node : Node) : Sharing R :=
  if node.name ∈ state.pctComputed then state
  else
    let dnNbrs := getWirelessDnNbrs w node.name
    let state :=
      if isYStreet dnNbrs then shareYStreet w state node.name
      else sharePointToPoint w traversal adjDownlinkBw dnNbrs state node.name
    let served := (state.dnData (bestPop w traversal node.name)).downstreamCNs
    { state with
      dnData := DnAirtimeDataMap.modify state.dnData node.name fun data =>
        { data with
          perCnFairtime := Double.toInt16 (((10000 : Nat) : R) / max ((1 : Nat) : R) served) } }

def computeTopologyToAirtime : DnAirtimeDataMap R :=
  if getCNs w = [] then assignEqualAirtimeAllSectors w
  else
    let state := adjustNbrs w traversal ulDlRatio (countCNs w traversal)
    let dnData := configureUplinks w traversal (backfill w traversal state)
    ((getDNs w).foldl (shareNode w traversal state.adjDownlinkBw) ⟨dnData, ∅⟩).dnData

/-! ### The entries of the nodes -/

/-- `struct LinkAirtime`. -/
structure LinkAirtime where
  macAddress : String
  txIdeal : Int
  txMin : Int
  txMax : Int
  rxIdeal : Int
  rxMin : Int
  rxMax : Int
deriving DecidableEq, Repr

/-- The entry for a neighbour, from its ideals. -/
def linkAirtime (node : Node) (txIdeal rxIdeal : Int) : LinkAirtime where
  macAddress := node.macAddr
  txIdeal := txIdeal
  txMin := TX_MIN
  txMax := max TX_MAX txIdeal
  rxIdeal := rxIdeal
  rxMin := RX_MIN
  rxMax := max RX_MAX rxIdeal

/-- The loop of `generateAirtimes`.  Each entry stands next to the neighbour it was made for. -/
def airtimesFrom (data : DnAirtimeData R) (totalDnDnAirtime : Int) :
    List Node → List (Node × LinkAirtime)
  | [] => []
  | node :: nbrs =>
    match node.nodeType with
    | .DN =>
      match data.dnDnFairtimeMap node.name with
      | none => airtimesFrom data totalDnDnAirtime nbrs
      | some share =>
        (node, linkAirtime node share INVALID_AIRTIME) ::
          airtimesFrom data (addInt16 totalDnDnAirtime share) nbrs
    | .CN =>
      (node, linkAirtime node
        (Double.toInt16 (((10000 - totalDnDnAirtime : Int) : R) / data.localCNs))
        data.perCnFairtime) :: airtimesFrom data totalDnDnAirtime nbrs
    | _ => (node, linkAirtime node 0 0) :: airtimesFrom data totalDnDnAirtime nbrs

/-- `nodeAirtimeMap`, with the neighbour of each entry. -/
def computeAirtimes (name : String) : Option (List (Node × LinkAirtime)) :=
  if name ∈ (getDNs w).map (·.name) then
    some (airtimesFrom (computeTopologyToAirtime w traversal ulDlRatio name) 0 (getNbrNodes w name))
  else none

end Shares

open List KeyIndex

/-! ### Links as edges -/

def Joins (link : Link) (name nbr : String) : Prop :=
  (link.aNodeName = name ∧ link.zNodeName = nbr) ∨ (link.zNodeName = name ∧ link.aNodeName = nbr)

variable {w : TopologyWrapper} {link : Link} {name nbr v u : String}

theorem Joins.symm (joins : Joins link name nbr) :
    Joins link nbr name := by
  rcases joins with ⟨atA, atZ⟩ | ⟨atZ, atA⟩
  · exact .inr ⟨atZ, atA⟩
  · exact .inl ⟨atA, atZ⟩

theorem Joins.ends (joins : Joins link name nbr) (ordered : link.aNodeName < link.zNodeName) :
    link.aNodeName = min name nbr ∧ link.zNodeName = max name nbr := by
  rcases joins with ⟨rfl, rfl⟩ | ⟨rfl, rfl⟩
  · exact ⟨(min_eq_left ordered.le).symm, (max_eq_right ordered.le).symm⟩
  · exact ⟨(min_eq_right ordered.le).symm, (max_eq_left ordered.le).symm⟩

section

variable (links : LinkInvariant w)
include links

theorem joins_iff : link ∈ w.getLinksByNodeName name ∧ nbrNodeName link name = nbr ↔
      link ∈ w.topology.links ∧ Joins link name nbr := by
  rw [mem_getLinksByNodeName, and_assoc]
  apply and_congr_right
  intro member
  have ordered := (links.wellFormed link member).ordered
  unfold incident Joins nbrNodeName
  constructor
  · rintro ⟨atA | atZ, other⟩
    · rw [if_pos atA] at other
      exact .inl ⟨atA, other⟩
    · have notA : link.aNodeName ≠ name := by
        rw [← atZ]
        exact ordered.ne
      rw [if_neg notA] at other
      exact .inr ⟨atZ, other⟩
  · rintro (⟨atA, atZ⟩ | ⟨atZ, atA⟩)
    · exact ⟨.inl atA, by rw [if_pos atA, atZ]⟩
    · have notA : link.aNodeName ≠ name := by
        rw [← atZ]
        exact ordered.ne
      exact ⟨.inr atZ, by rw [if_neg notA, atA]⟩

theorem joins_unique {first second : Link}
    (inFirst : first ∈ w.topology.links) (inSecond : second ∈ w.topology.links)
    (joinsFirst : Joins first name nbr) (joinsSecond : Joins second name nbr) : first = second := by
  have formedFirst := links.wellFormed first inFirst
  have formedSecond := links.wellFormed second inSecond
  obtain ⟨firstA, firstZ⟩ := joinsFirst.ends formedFirst.ordered
  obtain ⟨secondA, secondZ⟩ := joinsSecond.ends formedSecond.ordered
  apply links.name_unique inFirst inSecond
  rw [formedFirst.named, formedSecond.named, firstA, firstZ, secondA, secondZ]

theorem mem_adjacentVertices :
    nbr ∈ adjacentVertices w name ↔ ∃ link ∈ w.topology.links, Joins link name nbr := by
  unfold adjacentVertices
  simp only [mem_map, joins_iff links]

theorem nodup_adjacentVertices (name : String) : (adjacentVertices w name).Nodup := by
  have distinct : w.topology.links.Nodup := List.Nodup.of_map _ links.index.nodup
  apply List.Nodup.map_on _ (distinct.filter _)
  intro _ inFirst _ inSecond same
  obtain ⟨memberFirst, joinsFirst⟩ := (joins_iff links).mp ⟨inFirst, same⟩
  obtain ⟨memberSecond, joinsSecond⟩ := (joins_iff links).mp ⟨inSecond, rfl⟩
  exact joins_unique links memberFirst memberSecond joinsFirst joinsSecond

theorem edge_eq_some_iff :
    edge w name nbr = some link ↔ link ∈ w.topology.links ∧ Joins link name nbr := by
  constructor
  · intro found
    have leads := find?_some found
    exact (joins_iff links).mp ⟨mem_of_find?_eq_some found, of_decide_eq_true leads⟩
  · rintro ⟨member, joins⟩
    obtain ⟨atNode, leads⟩ := (joins_iff links).mpr ⟨member, joins⟩
    cases found : edge w name nbr with
    | none =>
      have missed := find?_eq_none.mp found link atNode
      exact absurd (decide_eq_true leads) missed
    | some =>
      have leadsOther := find?_some found
      obtain ⟨memberOther, joinsOther⟩ :=
        (joins_iff links).mp ⟨mem_of_find?_eq_some found, of_decide_eq_true leadsOther⟩
      rw [joins_unique links memberOther member joinsOther joins]

theorem mem_getWirelessDnNbrs : nbr ∈ getWirelessDnNbrs w name ↔
      isDn w nbr ∧ ∃ link ∈ w.topology.links, Joins link name nbr ∧ link.linkType = .WIRELESS := by
  unfold getWirelessDnNbrs
  rw [mem_filter, decide_eq_true_eq, Option.any_eq_true]
  constructor
  · rintro ⟨_, dn, link, found, wireless⟩
    obtain ⟨member, joins⟩ := (edge_eq_some_iff links).mp found
    exact ⟨dn, link, member, joins, of_decide_eq_true wireless⟩
  · rintro ⟨dn, link, member, joins, wireless⟩
    exact ⟨(mem_adjacentVertices links).mpr ⟨link, member, joins⟩, dn, link,
      (edge_eq_some_iff links).mpr ⟨member, joins⟩, decide_eq_true wireless⟩

theorem getWirelessDnNbrs_symm (dn : isDn w name)
    (adjacent : nbr ∈ getWirelessDnNbrs w name) : name ∈ getWirelessDnNbrs w nbr := by
  obtain ⟨_, link, member, joins, wireless⟩ := (mem_getWirelessDnNbrs links).mp adjacent
  exact (mem_getWirelessDnNbrs links).mpr ⟨dn, link, member, joins.symm, wireless⟩

theorem exists_nbr_ne_head (street : isYStreet (getWirelessDnNbrs w name)) :
    ∃ nbr ∈ getWirelessDnNbrs w name, (getWirelessDnNbrs w name).head? ≠ some nbr := by
  have distinct : (getWirelessDnNbrs w name).Nodup := (nodup_adjacentVertices links name).filter _
  unfold isYStreet at street
  cases listed : getWirelessDnNbrs w name with
  | nil =>
    rw [listed] at street
    simp at street
  | cons _ rest =>
    rw [listed] at street distinct
    cases rest with
    | nil => simp at street
    | cons second =>
      refine ⟨second, by simp, ?_⟩
      intro same
      rw [Option.some.inj same] at distinct
      simp at distinct

end

theorem eq_nil_of_not_isYStreet {first : String} {rest : List String}
    (single : ¬ isYStreet (first :: rest)) : rest = [] := by
  cases rest with
  | nil => rfl
  | cons => simp [isYStreet] at single

theorem isDn_iff (nodes : w.ExactNodes) :
    isDn w name ↔ name ∈ (getDNs w).map (·.name) := by
  unfold isDn getDNs nodeTypeOf getNode
  rw [decide_eq_true_eq, Option.map_eq_some_iff]
  simp only [nodes.find_eq_some_iff, mem_map, mem_filter, decide_eq_true_eq]
  constructor
  · rintro ⟨node, ⟨member, named⟩, typed⟩
    exact ⟨node, ⟨member, typed⟩, named⟩
  · rintro ⟨node, ⟨member, typed⟩, named⟩
    exact ⟨node, ⟨member, named⟩, typed⟩

/-! ### One turn of the last loop -/

variable {dnNbrs : List String}

section Shares

variable {R : Type}

def HasShare (dnData : DnAirtimeDataMap R) (name nbr : String) : Prop :=
  (dnData name).dnDnFairtimeMap nbr ≠ none

variable {dnData : DnAirtimeDataMap R}

theorem modify_keeps {α : Type} {v : DnAirtimeData R → α}
    {change : DnAirtimeData R → DnAirtimeData R} (keeps : ∀ data, v (change data) = v data)
    (other : String) : v (DnAirtimeDataMap.modify dnData name change other) = v (dnData other) := by
  unfold DnAirtimeDataMap.modify
  by_cases own : other = name
  · rw [own, update_self, keeps]
  · rw [update_of_ne own]

theorem hasShare_modify_of_keeps {change : DnAirtimeData R → DnAirtimeData R}
    (keeps : ∀ data, (change data).dnDnFairtimeMap = data.dnDnFairtimeMap) :
    HasShare (DnAirtimeDataMap.modify dnData name change) v u ↔ HasShare dnData v u := by
  unfold HasShare
  rw [modify_keeps keeps]

variable {share : DnAirtimeData R → Int}

theorem hasShare_modify_setShare :
    HasShare (DnAirtimeDataMap.modify dnData name fun data => data.setShare nbr (share data)) v u ↔
      HasShare dnData v u ∨ (v = name ∧ u = nbr) := by
  unfold HasShare DnAirtimeDataMap.modify DnAirtimeData.setShare
  by_cases own : v = name
  · rw [own]
    by_cases same : u = nbr
    · simp [same]
    · simp [same]
  · simp [own]

theorem hasShare_modify_setFirstShare :
    HasShare (DnAirtimeDataMap.modify dnData name fun data =>
        data.setFirstShare dnNbrs (share data)) v u ↔
      HasShare dnData v u ∨ (v = name ∧ dnNbrs.head? = some u) := by
  cases dnNbrs with
  | nil =>
    rw [hasShare_modify_of_keeps]
    · simp
    · exact fun _ => rfl
  | cons first =>
    change HasShare (DnAirtimeDataMap.modify dnData name fun data =>
      data.setShare first (share data)) v u ↔ _
    rw [hasShare_modify_setShare, head?_cons, Option.some.injEq, @eq_comm _ u first]

end Shares

section Turn

variable {R : Type} [Double R]

variable {total : R} {state : Sharing R}

theorem hasShare_shareWithChild {n : String} :
    HasShare (shareWithChild w name total state n).dnData v u ↔
      HasShare state.dnData v u ∨ (v = name ∧ u = n) ∨
        (v = n ∧ (getWirelessDnNbrs w n).head? = some u) := by
  unfold shareWithChild
  rw [hasShare_modify_of_keeps, hasShare_modify_setFirstShare, hasShare_modify_setShare, or_assoc]
  exact fun _ => rfl

variable (children : List String)

theorem hasShare_children : ∀ state : Sharing R,
      HasShare (children.foldl (shareWithChild w name total) state).dnData v u ↔
        HasShare state.dnData v u ∨ (v = name ∧ u ∈ children) ∨
          (v ∈ children ∧ (getWirelessDnNbrs w v).head? = some u) := by
  induction children with
  | nil => simp
  | cons _ _ ih =>
    intro state
    rw [foldl_cons, ih, hasShare_shareWithChild, mem_cons, mem_cons]
    constructor
    · rintro ((old | own | ⟨isChild, first⟩) | own | child)
      · exact .inl old
      · exact .inr (.inl ⟨own.1, .inl own.2⟩)
      · exact .inr (.inr ⟨.inl isChild, by rw [isChild, first]⟩)
      · exact .inr (.inl ⟨own.1, .inr own.2⟩)
      · exact .inr (.inr ⟨.inr child.1, child.2⟩)
    · rintro (old | ⟨isName, isChild | later⟩ | ⟨isChild | later, first⟩)
      · exact .inl (.inl old)
      · exact .inl (.inr (.inl ⟨isName, isChild⟩))
      · exact .inr (.inl ⟨isName, later⟩)
      · rw [isChild] at first
        exact .inl (.inr (.inr ⟨isChild, first⟩))
      · exact .inr (.inr ⟨later, first⟩)

theorem mem_computed_children {x : String} : ∀ state : Sharing R,
      x ∈ (children.foldl (shareWithChild w name total) state).pctComputed ↔
        x ∈ state.pctComputed ∨ x ∈ children := by
  induction children with
  | nil => simp
  | cons n rest ih =>
    intro state
    rw [foldl_cons, ih, mem_cons]
    change x ∈ insert n state.pctComputed ∨ x ∈ rest ↔ _
    rw [Finset.mem_insert]
    tauto

def Splits (w : TopologyWrapper) (state : Sharing R) (name : String) : Prop :=
  name ∉ state.pctComputed ∧ isYStreet (getWirelessDnNbrs w name) ∧ ¬ isPop w name

def Alone (w : TopologyWrapper) (state : Sharing R) (name : String) : Prop :=
  name ∉ state.pctComputed ∧ ¬ isYStreet (getWirelessDnNbrs w name)

/-- What the turn of a node adds to the shares and to the nodes that are done. -/
structure Turn (w : TopologyWrapper) (name : String) (before after : Sharing R) : Prop where
  computed : ∀ x, x ∈ after.pctComputed ↔
    x ∈ before.pctComputed ∨ (Splits w before name ∧ x ∈ getWirelessDnNbrs w name)
  shares : ∀ v u, HasShare after.dnData v u ↔ HasShare before.dnData v u ∨
    (Splits w before name ∧
      ((v = name ∧ u ∈ getWirelessDnNbrs w name) ∨
        (v ∈ getWirelessDnNbrs w name ∧ (getWirelessDnNbrs w v).head? = some u))) ∨
    (Alone w before name ∧ v = name ∧ (getWirelessDnNbrs w name).head? = some u)

omit [Double R] in
theorem turn_refl (noSplit : ¬ Splits w state name) (notAlone : ¬ Alone w state name) :
    Turn w name state state where
  computed x := by simp [noSplit]
  shares v u := by simp [noSplit, notAlone]

theorem shareYStreet_turn (pending : name ∉ state.pctComputed)
    (street : isYStreet (getWirelessDnNbrs w name)) :
    Turn w name state (shareYStreet w state name) := by
  have notAlone : ¬ Alone w state name := fun alone => alone.2 street
  have splits : Splits w state name ↔ ¬ isPop w name :=
    ⟨fun split => split.2.2, fun notPop => ⟨pending, street, notPop⟩⟩
  have children : yStreetNodes w name = if isPop w name then [] else getWirelessDnNbrs w name := by
    unfold yStreetNodes
    rw [if_pos street]
  constructor
  · intro x
    unfold shareYStreet
    rw [mem_computed_children, splits, children]
    by_cases pop : isPop w name <;> simp [pop]
  · intro v u
    unfold shareYStreet
    rw [hasShare_modify_of_keeps, hasShare_children, splits, children]
    · by_cases pop : isPop w name <;> simp [pop, notAlone]
    · exact fun _ => rfl

variable {traversal : Traversal} {adjDownlinkBw : String → Option R}

theorem sharePointToPoint_turn (pending : name ∉ state.pctComputed)
    (single : ¬ isYStreet (getWirelessDnNbrs w name)) :
    Turn w name state
      (sharePointToPoint w traversal adjDownlinkBw (getWirelessDnNbrs w name) state name) := by
  have noSplit : ¬ Splits w state name := fun split => single split.2.1
  have alone : Alone w state name := ⟨pending, single⟩
  constructor
  · intro x
    unfold sharePointToPoint
    simp [noSplit]
  · intro v u
    unfold sharePointToPoint
    rw [hasShare_modify_of_keeps, hasShare_modify_setFirstShare]
    · simp [noSplit, alone]
    · exact fun _ => rfl

theorem shareNode_turn (state : Sharing R) (node : Node) :
    Turn w node.name state (shareNode w traversal adjDownlinkBw state node) := by
  by_cases done : node.name ∈ state.pctComputed
  · unfold shareNode
    rw [if_pos done]
    exact turn_refl (fun split => split.1 done) fun alone => alone.1 done
  · have processed : Turn w node.name state
        (if isYStreet (getWirelessDnNbrs w node.name) then shareYStreet w state node.name
          else sharePointToPoint w traversal adjDownlinkBw (getWirelessDnNbrs w node.name) state
            node.name) := by
      split
      · next street => exact shareYStreet_turn done street
      · next single => exact sharePointToPoint_turn done single
    unfold shareNode
    rw [if_neg done]
    refine ⟨processed.computed, ?_⟩
    intro v u
    rw [hasShare_modify_of_keeps]
    · exact processed.shares v u
    · exact fun _ => rfl

end Turn

/-! ### The whole loop -/

section Turns

variable {R : Type}

def Separate (w : TopologyWrapper) : Prop :=
  ∀ name, isDn w name → isYStreet (getWirelessDnNbrs w name) → ¬ isPop w name ∧
    ∀ nbr ∈ getWirelessDnNbrs w name, ¬ isYStreet (getWirelessDnNbrs w nbr)

/-- The nodes that are done are no Y-streets, and have the share of their neighbour. -/
structure ChildrenServed (w : TopologyWrapper) (state : Sharing R) : Prop where
  single : ∀ x ∈ state.pctComputed, ¬ isYStreet (getWirelessDnNbrs w x)
  served : ∀ x ∈ state.pctComputed, ∀ u, (getWirelessDnNbrs w x).head? = some u →
    HasShare state.dnData x u

variable {before after : Sharing R}

theorem ChildrenServed.turn (separate : Separate w) (dn : isDn w name)
    (turn : Turn w name before after) (holds : ChildrenServed w before) :
    ChildrenServed w after := by
  constructor
  · intro x done
    rcases (turn.computed x).mp done with old | ⟨split, child⟩
    · exact holds.single x old
    · exact (separate name dn split.2.1).2 x child
  · intro x done u first
    apply (turn.shares x u).mpr
    rcases (turn.computed x).mp done with old | ⟨split, child⟩
    · exact .inl (holds.served x old u first)
    · exact .inr (.inl ⟨split, .inr ⟨child, first⟩⟩)

theorem ChildrenServed.hasShare (separate : Separate w) (dn : isDn w name)
    (turn : Turn w name before after) (holds : ChildrenServed w before)
    (adjacent : u ∈ getWirelessDnNbrs w name) : HasShare after.dnData name u := by
  apply (turn.shares name u).mpr
  by_cases street : isYStreet (getWirelessDnNbrs w name)
  · have pending : name ∉ before.pctComputed := fun done => holds.single name done street
    exact .inr (.inl ⟨⟨pending, street, (separate name dn street).1⟩, .inl ⟨rfl, adjacent⟩⟩)
  · have first : (getWirelessDnNbrs w name).head? = some u := by
      cases listed : getWirelessDnNbrs w name with
      | nil =>
        rw [listed] at adjacent
        cases adjacent
      | cons =>
        rw [listed] at street adjacent
        rw [eq_nil_of_not_isYStreet street, mem_singleton] at adjacent
        rw [head?_cons, adjacent]
    by_cases done : name ∈ before.pctComputed
    · exact .inl (holds.served name done u first)
    · exact .inr (.inr ⟨⟨done, street⟩, rfl, first⟩)

def HeadOnly (w : TopologyWrapper) (state : Sharing R) (v : String) : Prop :=
  ∀ u, HasShare state.dnData v u → (getWirelessDnNbrs w v).head? = some u

theorem HeadOnly.turn {v : String} (turn : Turn w name before after)
    (holds : HeadOnly w before v) (noSplit : v = name → ¬ Splits w before name) :
    HeadOnly w after v := by
  intro u has
  rcases (turn.shares v u).mp has with old | ⟨split, ⟨own, _⟩ | ⟨_, first⟩⟩ | ⟨_, own, first⟩
  · exact holds u old
  · exact absurd split (noSplit own)
  · exact first
  · rw [own]
    exact first

structure Competing (w : TopologyWrapper) (state : Sharing R) (v u : String) : Prop where
  settled : (v ∈ state.pctComputed ∧ HeadOnly w state v) ∨
    (u ∈ state.pctComputed ∧ HeadOnly w state u) ∨ (HeadOnly w state v ∧ HeadOnly w state u)

theorem Competing.turn (turn : Turn w name before after) (apart : v ≠ u)
    (forth : u ∈ getWirelessDnNbrs w v) (back : v ∈ getWirelessDnNbrs w u)
    (holds : Competing w before v u) :
    Competing w after v u := by
  constructor
  rcases holds.settled with ⟨done, only⟩ | ⟨done, only⟩ | ⟨onlyV, onlyU⟩
  · have noSplit : v = name → ¬ Splits w before name := fun own split => split.1 (own ▸ done)
    exact .inl ⟨(turn.computed v).mpr (.inl done), only.turn turn noSplit⟩
  · have noSplit : u = name → ¬ Splits w before name := fun own split => split.1 (own ▸ done)
    exact .inr (.inl ⟨(turn.computed u).mpr (.inl done), only.turn turn noSplit⟩)
  · by_cases split : Splits w before name
    · by_cases ownV : v = name
      · -- `v` becomes the parent, and `u` its child
        have child : u ∈ after.pctComputed :=
          (turn.computed u).mpr (.inr ⟨split, ownV ▸ forth⟩)
        exact .inr (.inl ⟨child, onlyU.turn turn fun ownU => absurd (ownV.trans ownU.symm) apart⟩)
      · by_cases ownU : u = name
        · have child : v ∈ after.pctComputed :=
            (turn.computed v).mpr (.inr ⟨split, ownU ▸ back⟩)
          exact .inl ⟨child, onlyV.turn turn fun own => absurd own ownV⟩
        · exact .inr (.inr ⟨onlyV.turn turn fun own => absurd own ownV,
            onlyU.turn turn fun own => absurd own ownU⟩)
    · exact .inr (.inr ⟨onlyV.turn turn fun _ => split, onlyU.turn turn fun _ => split⟩)

end Turns

section Loop

variable {R : Type} [Double R] {traversal : Traversal} {adjDownlinkBw : String → Option R}

theorem hasShare_shareNodes (nodes : List Node) (state : Sharing R)
    (old : HasShare state.dnData v u) :
    HasShare (nodes.foldl (shareNode w traversal adjDownlinkBw) state).dnData v u :=
  foldlRecOn (motive := fun state => HasShare state.dnData v u) nodes _ old
    fun state holds node _ => ((shareNode_turn state node).shares v u).mpr (.inl holds)

theorem hasShare_of_separate (separate : Separate w) (nodes : List Node) :
    ∀ state : Sharing R, ChildrenServed w state → (∀ node ∈ nodes, isDn w node.name) →
      ∀ node ∈ nodes, ∀ u ∈ getWirelessDnNbrs w node.name,
        HasShare (nodes.foldl (shareNode w traversal adjDownlinkBw) state).dnData node.name u := by
  induction nodes with
  | nil =>
    intro _ _ _ _ member
    cases member
  | cons first rest ih =>
    intro state holds dns node member u adjacent
    have dn := dns first (mem_cons_self ..)
    have turn : Turn w first.name state (shareNode w traversal adjDownlinkBw state first) :=
      shareNode_turn state first
    rcases mem_cons.mp member with own | later
    · rw [own] at adjacent ⊢
      exact hasShare_shareNodes rest _ (holds.hasShare separate dn turn adjacent)
    · exact ih _ (holds.turn separate dn turn)
        (fun node later => dns node (mem_cons_of_mem _ later)) node later u adjacent

theorem headOnly_of_pop {v : String} (pop : isPop w v) (nodes : List Node) (state : Sharing R)
    (only : HeadOnly w state v) :
    HeadOnly w (nodes.foldl (shareNode w traversal adjDownlinkBw) state) v :=
  foldlRecOn (motive := fun state => HeadOnly w state v) nodes _ only
    fun state holds node _ => holds.turn (shareNode_turn state node) fun own split =>
      split.2.2 (own ▸ pop)

theorem competing_of_adjacent (apart : v ≠ u) (forth : u ∈ getWirelessDnNbrs w v)
    (back : v ∈ getWirelessDnNbrs w u) (nodes : List Node) (state : Sharing R)
    (holds : Competing w state v u) :
    Competing w (nodes.foldl (shareNode w traversal adjDownlinkBw) state) v u :=
  foldlRecOn (motive := fun state => Competing w state v u) nodes _ holds
    fun state holds node _ => holds.turn (shareNode_turn state node) apart forth back

end Loop

/-! ### The records before the last loop -/

section Counts

variable {R : Type} [Double R]

structure Counted (w : TopologyWrapper) (dnData : DnAirtimeDataMap R) : Prop where
  noShare : ∀ name, (dnData name).dnDnFairtimeMap = fun _ => none
  local_eq : ∀ name ∈ (getDNs w).map (·.name), (dnData name).localCNs = (localCount w name : R)

variable {traversal : Traversal} {ulDlRatio : R}

theorem Counted.of_keeps {dnData dnData' : DnAirtimeDataMap R} (counted : Counted w dnData)
    (shares : ∀ name, (dnData' name).dnDnFairtimeMap = (dnData name).dnDnFairtimeMap)
    (locals : ∀ name, (dnData' name).localCNs = (dnData name).localCNs) : Counted w dnData' where
  noShare name := (shares name).trans (counted.noShare name)
  local_eq name dn := (locals name).trans (counted.local_eq name dn)

variable {dnData : DnAirtimeDataMap R}

theorem Counted.modify (counted : Counted w dnData) (name : String)
    {change : DnAirtimeData R → DnAirtimeData R}
    (shares : ∀ data, (change data).dnDnFairtimeMap = data.dnDnFairtimeMap)
    (locals : ∀ data, (change data).localCNs = data.localCNs) :
    Counted w (DnAirtimeDataMap.modify dnData name change) :=
  counted.of_keeps (modify_keeps shares) (modify_keeps locals)

theorem countCNs_counted : Counted w (countCNs w traversal : DnAirtimeDataMap R) := by
  constructor
  · apply foldlRecOn
      (motive := fun dnData : DnAirtimeDataMap R => ∀ name, (dnData name).dnDnFairtimeMap = _)
    · intro name
      rfl
    · intro _ holds _ _ name
      rw [modify_keeps (v := DnAirtimeData.dnDnFairtimeMap)]
      · exact holds name
      · exact fun _ => rfl
  · intro name dn
    -- the last DN of the name writes the record
    apply Guarded.foldl_makes (P := fun dnData : DnAirtimeDataMap R => (dnData name).localCNs = _)
      (Q := fun node => node.name = name)
    · intro _ node _ holds
      unfold DnAirtimeDataMap.modify
      by_cases own : name = node.name
      · rw [own, update_self]
      · rw [update_of_ne own, holds]
    · rintro _ _ rfl
      unfold DnAirtimeDataMap.modify
      rw [update_self]
    · exact .inl (mem_map.mp dn)

variable {state : Rebalanced R}

theorem Counted.adjustNbr (counted : Counted w state.dnData) (dn : String) :
    Counted w (adjustNbr w traversal ulDlRatio state dn).dnData := by
  unfold Airtime.adjustNbr
  split
  · exact counted
  · dsimp only
    split
    · dsimp only
      apply counted.modify <;> exact fun _ => rfl
    · exact counted

theorem Counted.backfillNode {p : String} (counted : Counted w dnData) (adjNode : String) :
    Counted w (backfillNode w traversal state p dnData adjNode) := by
  unfold Airtime.backfillNode
  dsimp only
  split
  · apply counted.of_keeps
    · intro name
      split <;> rfl
    · intro name
      split <;> rfl
  · exact counted

theorem Counted.configureUplink (counted : Counted w dnData) (dn : String) :
    Counted w (configureUplink w traversal dnData dn) := by
  unfold Airtime.configureUplink
  split
  · apply counted.modify <;> exact fun _ => rfl
  · exact counted

/-- The maps with which the last loop starts. -/
def rebalancedData (w : TopologyWrapper) (traversal : Traversal) (ulDlRatio : R) :
    DnAirtimeDataMap R :=
  configureUplinks w traversal
    (backfill w traversal (adjustNbrs w traversal ulDlRatio (countCNs w traversal)))

theorem rebalancedData_counted : Counted w (rebalancedData w traversal ulDlRatio) := by
  have adjusted : Counted w (adjustNbrs w traversal ulDlRatio (countCNs w traversal)).dnData := by
    apply foldlRecOn (motive := fun state : Rebalanced R => Counted w state.dnData)
    · exact countCNs_counted
    · intro _ holds dn _
      exact holds.adjustNbr dn
  have filled : Counted w
      (backfill w traversal (adjustNbrs w traversal ulDlRatio (countCNs w traversal))) := by
    apply foldlRecOn (motive := Counted w) _ _ adjusted
    intro _ holds p _
    exact foldlRecOn (motive := Counted w) _ _ holds
      fun _ holds adjNode _ => holds.backfillNode adjNode
  exact foldlRecOn (motive := Counted w) _ _ filled fun _ holds dn _ => holds.configureUplink dn

end Counts

/-! ### A network without clients -/

section NoClients

variable {R : Type}

theorem setShares_ne_none {share : Int} (dnNbrs : List String)
    (data : DnAirtimeData R) (given : u ∈ dnNbrs ∨ data.dnDnFairtimeMap u ≠ none) :
    (dnNbrs.foldl (fun data nbr => data.setShare nbr share) data).dnDnFairtimeMap u ≠ none := by
  apply Guarded.foldl_makes (P := fun data : DnAirtimeData R => data.dnDnFairtimeMap u ≠ none)
    (Q := fun nbr => nbr = u)
  · intro _ nbr _ holds
    unfold DnAirtimeData.setShare
    by_cases same : u = nbr
    · simp [same]
    · simpa [same] using holds
  · rintro _ _ rfl
    simp [DnAirtimeData.setShare]
  · simpa using given

theorem equalShares_ne_none {data : DnAirtimeData R}
    (holds : u ∈ dnNbrs ∨ data.dnDnFairtimeMap u ≠ none) :
    (equalShares dnNbrs data).dnDnFairtimeMap u ≠ none := by
  unfold equalShares
  split
  · exact setShares_ne_none dnNbrs data holds
  · next single =>
    cases dnNbrs with
    | nil => exact @setShares_ne_none _ _ 10000 [] data holds
    | cons nbr =>
      rw [eq_nil_of_not_isYStreet single] at holds
      exact setShares_ne_none [nbr] data holds

theorem hasShare_equalShares {w : TopologyWrapper} (nodes : List Node)
    (dnData : DnAirtimeDataMap R) (listed : v ∈ nodes.map (·.name))
    (adjacent : u ∈ getWirelessDnNbrs w v) :
    HasShare (nodes.foldl (fun dnData node => DnAirtimeDataMap.modify dnData node.name
      (equalShares (getWirelessDnNbrs w node.name))) dnData) v u := by
  have own : ∀ (dnData : DnAirtimeDataMap R) (node : Node), node.name = v →
      HasShare (DnAirtimeDataMap.modify dnData node.name
        (equalShares (getWirelessDnNbrs w node.name))) v u := by
    rintro _ _ rfl
    unfold HasShare DnAirtimeDataMap.modify
    rw [update_self]
    exact equalShares_ne_none (.inl adjacent)
  apply Guarded.foldl_makes (P := (HasShare · v u)) (Q := fun node => node.name = v) _ own
  · exact .inl (mem_map.mp listed)
  · intro dnData node _ _
    by_cases isOwn : node.name = v
    · exact own dnData node isOwn
    · unfold HasShare DnAirtimeDataMap.modify
      rwa [update_of_ne (Ne.symm isOwn)]

end NoClients

/-! ### Entries -/

section Covered

variable {R : Type} [Double R]

def share (data : DnAirtimeData R) (node : Node) : Option Int :=
  if node.nodeType = .DN then data.dnDnFairtimeMap node.name else none

/-- The entry of a neighbour, if every client has the given transmit ideal. -/
def entryOf (data : DnAirtimeData R) (clientShare : Int) (node : Node) : Option LinkAirtime :=
  match node.nodeType with
  | .DN => (data.dnDnFairtimeMap node.name).map (linkAirtime node · INVALID_AIRTIME)
  | .CN => some (linkAirtime node clientShare data.perCnFairtime)
  | _ => some (linkAirtime node 0 0)

def clientShareAt (data : DnAirtimeData R) (total : Int) : Int :=
  Double.toInt16 (((10000 - total : Int) : R) / data.localCNs)

variable {data : DnAirtimeData R} {node : Node}

omit [Double R] in
theorem entryOf_eq_none {clientShare : Int} : entryOf data clientShare node = none ↔
    node.nodeType = .DN ∧ data.dnDnFairtimeMap node.name = none := by
  unfold entryOf
  cases node.nodeType <;> simp

theorem airtimesFrom_cons (total : Int) (node : Node) (nbrs : List Node) :
    airtimesFrom data total (node :: nbrs) =
      (entryOf data (clientShareAt data total) node).toList.map (node, ·) ++
        airtimesFrom data (match share data node with
          | none => total
          | some value => addInt16 total value) nbrs := by
  rw [airtimesFrom]
  unfold entryOf share clientShareAt
  cases typed : node.nodeType with
  | DN =>
    cases data.dnDnFairtimeMap node.name with
    | none | some value => rfl
  | CN | unset =>
    rfl
  | unknown =>
    rfl

theorem mem_airtimesFrom (nbrs : List Node) :
    ∀ total, (∃ entry, (node, entry) ∈ airtimesFrom data total nbrs) ↔
      node ∈ nbrs ∧ (node.nodeType = .DN → data.dnDnFairtimeMap node.name ≠ none) := by
  induction nbrs with
  | nil =>
    intro total
    simp [airtimesFrom]
  | cons nbr _ ih =>
    intro total
    have own : ∀ made : Option LinkAirtime,
        (∃ entry, (node, entry) ∈ made.toList.map (nbr, ·)) ↔ made ≠ none ∧ node = nbr := by
      intro made
      cases made <;> simp [eq_comm]
    simp only [airtimesFrom_cons, mem_append, exists_or, ih, own, ne_eq, entryOf_eq_none, not_and,
      mem_cons, or_and_right]
    apply or_congr_left
    constructor
    · rintro ⟨made, rfl⟩
      exact ⟨rfl, made⟩
    · rintro ⟨rfl, made⟩
      exact ⟨made, rfl⟩

variable (w) (traversal : Traversal) (ulDlRatio : R)

/-- The result of `computeAirtimes` has an entry at a node for a neighbour. -/
def Listed (name nbr : String) : Prop :=
  ∃ entries, computeAirtimes w traversal ulDlRatio name = some entries ∧
    ∃ found ∈ entries, found.1.name = nbr

/-- A wireless link has an entry at both ends between DNs, and at the DN between a DN and a CN. -/
def Covers : Prop :=
  ∀ link ∈ w.topology.links, link.linkType = .WIRELESS → ∀ name nbr, Joins link name nbr →
    w.nodeTypeOf name = some .DN →
    w.nodeTypeOf nbr = some .DN ∨ w.nodeTypeOf nbr = some .CN →
      Listed w traversal ulDlRatio name nbr

variable {w traversal ulDlRatio}

section

variable (nodes : w.ExactNodes)
include nodes

theorem listed_iff
    (links : LinkInvariant w) (member : link ∈ w.topology.links)
    (joins : Joins link name nbr) (dn : isDn w name) :
    Listed w traversal ulDlRatio name nbr ↔
      (isDn w nbr → HasShare (computeTopologyToAirtime w traversal ulDlRatio) name nbr) := by
  obtain ⟨node, found⟩ : ∃ node, w.getNode nbr = some node := by
    rcases joins with ⟨_, atZ⟩ | ⟨_, atA⟩
    · exact Option.ne_none_iff_exists'.mp (atZ ▸ (links.wellFormed link member).zNode)
    · exact Option.ne_none_iff_exists'.mp (atA ▸ (links.wellFormed link member).aNode)
  have named : node.name = nbr := (nodes.sound.find_key found).2
  have adjacent : node ∈ getNbrNodes w name :=
    mem_filterMap.mpr ⟨nbr, (mem_adjacentVertices links).mpr ⟨link, member, joins⟩, found⟩
  have typed : isDn w nbr ↔ node.nodeType = .DN := by
    unfold isDn nodeTypeOf
    rw [found]
    simp
  have entries : computeAirtimes w traversal ulDlRatio name =
      some (airtimesFrom (computeTopologyToAirtime w traversal ulDlRatio name) 0
        (getNbrNodes w name)) := by
    unfold computeAirtimes
    rw [if_pos ((isDn_iff nodes).mp dn)]
  unfold Listed
  rw [entries]
  constructor
  · rintro ⟨_, same, ⟨other, entry⟩, listed, otherNamed⟩ isDnNbr
    cases same
    obtain ⟨inNbrs, share⟩ := (mem_airtimesFrom _ 0).mp ⟨entry, listed⟩
    obtain ⟨otherName, _, otherFound⟩ := mem_filterMap.mp inNbrs
    have sameNode : other = node := by
      have key : other.name = otherName := (nodes.sound.find_key otherFound).2
      rw [← key, otherNamed] at otherFound
      exact Option.some.inj (otherFound.symm.trans found)
    rw [sameNode, named] at share
    exact share (typed.mp isDnNbr)
  · intro share
    obtain ⟨entry, listed⟩ := (mem_airtimesFrom _ 0).mpr
      ⟨adjacent, fun isDnNbr => named.symm ▸ share (typed.mpr isDnNbr)⟩
    exact ⟨_, rfl, (node, entry), listed, named⟩

theorem covers_iff (links : LinkInvariant w) : Covers w traversal ulDlRatio ↔
      ∀ name, isDn w name → ∀ nbr ∈ getWirelessDnNbrs w name,
        HasShare (computeTopologyToAirtime w traversal ulDlRatio) name nbr := by
  constructor
  · intro covers name dn nbr adjacent
    obtain ⟨dnNbr, link, member, joins, wireless⟩ := (mem_getWirelessDnNbrs links).mp adjacent
    have listed := covers link member wireless name nbr joins (of_decide_eq_true dn)
      (.inl (of_decide_eq_true dnNbr))
    exact (listed_iff nodes links member joins dn).mp listed dnNbr
  · intro shares link member wireless name nbr joins typed _
    have dn : isDn w name := decide_eq_true typed
    apply (listed_iff nodes links member joins dn).mpr
    intro dnNbr
    exact shares name dn nbr
      ((mem_getWirelessDnNbrs links).mpr ⟨dnNbr, link, member, joins, wireless⟩)

end

variable (w traversal ulDlRatio) in
/-- The state after the last loop. -/
def sharedState : Sharing R :=
  (getDNs w).foldl (shareNode w traversal
      (adjustNbrs w traversal ulDlRatio (countCNs w traversal)).adjDownlinkBw)
    ⟨rebalancedData w traversal ulDlRatio, ∅⟩

theorem computeTopologyToAirtime_eq (clients : getCNs w ≠ []) :
    computeTopologyToAirtime w traversal ulDlRatio =
      (sharedState w traversal ulDlRatio).dnData := by
  unfold computeTopologyToAirtime
  rw [if_neg clients]
  rfl

omit [Double R] in
theorem HeadOnly.false (links : LinkInvariant w) {state : Sharing R}
    (only : HeadOnly w state name) (street : isYStreet (getWirelessDnNbrs w name))
    (shares : ∀ nbr ∈ getWirelessDnNbrs w name, HasShare state.dnData name nbr) : False := by
  obtain ⟨nbr, adjacent, notFirst⟩ := exists_nbr_ne_head links street
  exact notFirst (only nbr (shares nbr adjacent))

theorem separate_of_shares (links : LinkInvariant w) (clients : getCNs w ≠ [])
    (shares : ∀ name, isDn w name → ∀ nbr ∈ getWirelessDnNbrs w name,
      HasShare (computeTopologyToAirtime w traversal ulDlRatio) name nbr) : Separate w := by
  rw [computeTopologyToAirtime_eq clients] at shares
  have start : ∀ name, HeadOnly w (⟨rebalancedData w traversal ulDlRatio, ∅⟩ : Sharing R) name := by
    intro name _ has
    unfold HasShare at has
    rw [rebalancedData_counted.noShare name] at has
    exact absurd rfl has
  intro name dn street
  constructor
  · intro pop
    exact (headOnly_of_pop pop _ _ (start name)).false links street (shares name dn)
  · intro nbr adjacent streetNbr
    have dnNbr : isDn w nbr := ((mem_getWirelessDnNbrs links).mp adjacent).1
    have apart : name ≠ nbr := by
      intro same
      obtain ⟨_, link, member, joins, _⟩ := (mem_getWirelessDnNbrs links).mp adjacent
      have ordered := (links.wellFormed link member).ordered
      obtain ⟨atA, atZ⟩ := joins.ends ordered
      simp [atA, atZ, same] at ordered
    have competing : Competing w (sharedState w traversal ulDlRatio) name nbr :=
      competing_of_adjacent apart adjacent (getWirelessDnNbrs_symm links dn adjacent) _ _
        ⟨.inr (.inr ⟨start name, start nbr⟩)⟩
    rcases competing.settled with ⟨_, only⟩ | ⟨_, only⟩ | ⟨only, _⟩
    · exact only.false links street (shares name dn)
    · exact only.false links streetNbr (shares nbr dnNbr)
    · exact only.false links street (shares name dn)

theorem shares_of_separate (nodes : w.ExactNodes)
    (clients : getCNs w ≠ []) (separate : Separate w) :
    ∀ name, isDn w name → ∀ nbr ∈ getWirelessDnNbrs w name,
      HasShare (computeTopologyToAirtime w traversal ulDlRatio) name nbr := by
  intro _ dn nbr adjacent
  rw [computeTopologyToAirtime_eq clients]
  have dns : ∀ node ∈ getDNs w, isDn w node.name := by
    intro _ member
    exact (isDn_iff nodes).mpr (mem_map_of_mem member)
  have start : ChildrenServed w (⟨rebalancedData w traversal ulDlRatio, ∅⟩ : Sharing R) :=
    ⟨fun x done => absurd done (Finset.notMem_empty x),
      fun x done => absurd done (Finset.notMem_empty x)⟩
  obtain ⟨node, member, named⟩ := mem_map.mp ((isDn_iff nodes).mp dn)
  cases named
  exact hasShare_of_separate separate (getDNs w) _ start dns node member nbr adjacent

end Covered

/-- All wireless links are covered exactly if there are no clients, or if Y-streets are neither at
POP nodes nor next to each other. -/
theorem links_covered_iff {R : Type} [Double R] {w : TopologyWrapper}
    (nodes : w.ExactNodes) (links : LinkInvariant w)
    (traversal : Traversal) (ulDlRatio : R) :
    Covers w traversal ulDlRatio ↔ getCNs w = [] ∨ Separate w := by
  rw [covers_iff nodes links]
  by_cases clients : getCNs w = []
  · constructor
    · intro _
      exact .inl clients
    · intro _ _ dn _ adjacent
      unfold computeTopologyToAirtime
      rw [if_pos clients]
      exact hasShare_equalShares (getDNs w) _ ((isDn_iff nodes).mp dn) adjacent
  · constructor
    · intro shares
      exact .inr (separate_of_shares links clients shares)
    · rintro (noClients | separate)
      · exact absurd noClients clients
      · exact shares_of_separate nodes clients separate

/-! ### A POP node with two neighbours, and a relay behind a POP node -/

def wirelessLink (aNodeName zNodeName : String) : Link := radioLink aNodeName "" zNodeName ""

/-- The POP node `p` serves `q` and `r`, and `q` serves the client `u`. -/
def fork : TopologyWrapper :=
  indexed
    { nodes := [{ name := "p", nodeType := .DN, popNode := true }, { name := "q", nodeType := .DN },
        { name := "r", nodeType := .DN }, { name := "u", nodeType := .CN }]
      links := [wirelessLink "p" "q", wirelessLink "p" "r", wirelessLink "q" "u"] }

def forkPaths : Traversal where
  pathNodes _ name :=
    if name = "q" then {"p", "q"}
    else if name = "r" then {"p", "r"}
    else if name = "u" then {"p", "q", "u"}
    else ∅
  uplinkOrder := .sorted
  adjustedOrder := .sorted

/-- The POP node gets no entry for either of its two neighbours. -/
theorem fork_not_covered : computeAirtimes fork forkPaths (1 / 5 : Rat) "p" = some [] ∧
      ¬ Covers fork forkPaths (1 / 5 : Rat) := by
  have empty : computeAirtimes fork forkPaths (1 / 5 : Rat) "p" = some [] := by decide +kernel
  refine ⟨empty, ?_⟩
  intro covers
  obtain ⟨_, computed, _, listed, _⟩ :=
    covers (wirelessLink "p" "q") (mem_cons_self ..) rfl "p" "q" (.inl ⟨rfl, rfl⟩)
      (by decide) (.inl (by decide))
  rw [empty] at computed
  cases computed
  cases listed

/-- Behind the POP node `p` stand `q`, `r` and the client `u` in a row. -/
def relay : TopologyWrapper :=
  indexed
    { nodes := [{ name := "p", nodeType := .DN, popNode := true }, { name := "q", nodeType := .DN },
        { name := "r", nodeType := .DN }, { name := "u", nodeType := .CN }]
      links := [wirelessLink "p" "q", wirelessLink "q" "r", wirelessLink "r" "u"] }

def relayPaths : Traversal where
  pathNodes _ name :=
    if name = "q" then {"p", "q"}
    else if name = "r" then {"p", "q", "r"}
    else if name = "u" then {"p", "q", "r", "u"}
    else ∅
  uplinkOrder := .sorted
  adjustedOrder := .sorted

theorem relay_nodes : relay.ExactNodes :=
  refresh_exact (by decide) (by simp)

theorem relay_links : LinkInvariant relay where
  index := refresh_exact (by decide) (by simp)
  wellFormed := by
    intro _ member
    simp only [relay, indexed, TopologyWrapper.ofTopology, mem_cons, not_mem_nil, or_false] at member
    rcases member with rfl | rfl | rfl
    all_goals exact ⟨by decide, by decide, by decide, by decide, by decide, rfl⟩

/-- The one Y-street is `q`, between the POP node and `r`. -/
theorem relay_covered : getCNs relay ≠ [] ∧ isYStreet (getWirelessDnNbrs relay "q") ∧
      Covers relay relayPaths (1 / 5 : Rat) := by
  refine ⟨by decide, by decide, ?_⟩
  apply (links_covered_iff relay_nodes relay_links relayPaths (1 / 5 : Rat)).mpr
  right
  intro name dn
  have listed : name ∈ ["p", "q", "r"] := (isDn_iff relay_nodes).mp dn
  have separate : ∀ name ∈ ["p", "q", "r"], isYStreet (getWirelessDnNbrs relay name) →
      ¬ isPop relay name ∧ ∀ nbr ∈ getWirelessDnNbrs relay name,
        ¬ isYStreet (getWirelessDnNbrs relay nbr) := by decide
  exact separate name listed

end Terragraph.Airtime
