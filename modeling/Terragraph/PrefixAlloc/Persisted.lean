/-
Module: Terragraph.PrefixAlloc.Persisted
Purpose: The allocation that a topology file carries, its checks, the constructor, and the
  exceptions of `populateZonesAndPrefixes`.
Trusted boundary: human-reviewed embedding of `DeterministicPrefixAllocator.cpp` and
  `PrefixZone.cpp`
Main exports: validateZone, persisted_zones_consistent_iff, stored_data_contained_iff
-/
import Terragraph.PrefixAlloc.Centralized
import Terragraph.PrefixAlloc.Reallocation

namespace Terragraph

variable {s s' : AllocState Deterministic} {zoneName nodeName text : String} {texts : List String}
  {node : Node} {thriftZone : Zone} {entries : List (String × Zone)}

section Stored

open Guarded TopologyWrapper Deterministic AssocList List Function Nat

/-- `throw std::invalid_argument(what)` if the condition is violated. -/
def refuse (violated : Prop) [Decidable violated] (what : String) : Except AllocFailure Unit :=
  failIf violated (.thrown (.invalidArgument what))

/-- `folly::IPAddress::createNetwork`, in a function that changes nothing. -/
def readNetwork (net : NetworkUtils) (text : String) : Except AllocFailure CIDRNetwork :=
  (net.createNetwork text).mapError .ipAddressFormat

/-- `catch (const std::invalid_argument&)` handles the exception. -/
def AllocFailure.isInvalidArgument : AllocFailure → Bool
  | .thrown (.invalidArgument _) => true
  | _ => false

section Populate

variable (net : NetworkUtils) (beyond : Int → BitVec 32) (params : AcceptedParams)
  (order : SetOrder)

/-! ### Checks -/

/-- `DeterministicPrefixAllocator::validateZoneSiteName`. -/
def validateZoneSiteName (w : TopologyWrapper) (zoneSiteName : String) :
    Except AllocFailure Unit :=
  refuse ((w.getSite zoneSiteName).isNone = true) ("Site " ++ zoneSiteName ++ " does not exist")

/-- The loop of `validateZone` over the zone prefixes, with the unsigned sum `totalPrefixSpace`. -/
def validateZonePrefixes (zoneName : String) : List String → Nat → Except AllocFailure Nat
  | [], totalPrefixSpace => .ok totalPrefixSpace
  | zonePrefix :: rest, totalPrefixSpace => do
    let network ← readNetwork net zonePrefix
    refuse (¬ network.InSubnet params.seedPrefix)
      ("Invalid prefix (" ++ zonePrefix ++ ") in zone " ++ zoneName ++
        " (not in subnet of network prefix " ++ net.networkToString params.seedPrefix ++ ")")
    validateZonePrefixes zoneName rest
      ((totalPrefixSpace + Word32.networkToPrefixSpace beyond params network) % 2 ^ 32)

/-- `DeterministicPrefixAllocator::validateZone`. -/
def validateZone (zoneName : String) (thriftZone : Zone) : Except AllocFailure Unit := do
  let totalPrefixSpace ← validateZonePrefixes net beyond params zoneName
    (order.toList thriftZone.zonePrefixes) 0
  refuse (totalPrefixSpace < thriftZone.nodeNames.card)
    ("Zone " ++ zoneName ++ " has more nodes (" ++ toString thriftZone.nodeNames.card ++
      ") than available prefix space (" ++ toString totalPrefixSpace ++ ")")

/-- The loop body of the constructor of `PrefixZone`.  A prefix space is kept as its 32-bit word. -/
def insertZonePrefix (zone : PrefixZone) (text : String) : Except AllocFailure PrefixZone := do
  let network ← readNetwork net text
  return { zone.addZonePrefix network with
    allocatedPrefixSpaces :=
      insert (prefixCount beyond params network) zone.allocatedPrefixSpaces }

/-- `PrefixZone::PrefixZone(zone, allocPrefixLen)`. -/
def PrefixZone.ofThrift (thriftZone : Zone) : Except AllocFailure PrefixZone :=
  (order.toList thriftZone.zonePrefixes).foldlM (insertZonePrefix net beyond params)
    { nodes := thriftZone.nodeNames }

/-- `DeterministicPrefixAllocator::validateNodePrefix`.  The handler of the first exception formats
a message with the prefix, and throws again if that is not set. -/
def validateNodePrefix (node : Node) (zone : PrefixZone) : Except AllocFailure Unit :=
  match node.nodePrefix with
  | none => .error (.thrown .badOptionalAccess)
  | some text =>
    match net.createNetwork text with
    | .error what =>
      .error (.thrown (.invalidArgument (invalidPrefix text node.name ++ ", err: " ++ what)))
    | .ok network => do
      refuse (¬ ∃ zonePrefix ∈ zone.allocatedZonePrefixes, network.InSubnet zonePrefix)
        (invalidPrefix text node.name ++ " (not in subnet of any zone prefixes: " ++
          ",".intercalate (order.toList (PrefixZone.getZonePrefixStrings net zone)) ++ ")")
      refuse (network.length ≠ params.allocPrefixLen)
        (invalidPrefix text node.name ++ " (longer than allocPrefixLen (" ++
          toString params.allocPrefixLen ++ ") bits)")
      match zone.allocatedNodePrefixes network with
      | none => .ok ()
      | some owner =>
        refuse (owner ≠ node.name)
          (invalidPrefix text node.name ++ " (prefix already allocated to node " ++ owner ++
            ")")

/-! ### The stored allocation -/

/-- `folly::IPAddress::createNetwork(node->prefix_ref().value())`. -/
def nodeNetwork (node : Node) : Except AllocFailure CIDRNetwork :=
  match node.nodePrefix with
  | none => .error (.thrown .badOptionalAccess)
  | some text => readNetwork net text

/-- The body of the loop of `populateZonesAndPrefixes` over the nodes of a zone. -/
def populateNodePrefix (zoneName : String) (zone : PrefixZone) (nodeName : String) :
    DpaM PrefixZone := do
  let s ← get
  match s.topologyW.getNode nodeName with
  | none => throwInvalidArgument ("Invalid nodeName: " ++ nodeName)
  | some node => do
    check fun _ => validateNodePrefix net params order node zone
    let network ← check fun _ => nodeNetwork net node
    setNode2Zone nodeName (some zoneName)
    return zone.assignNodePrefix nodeName network

/-- The body of the loop of `populateZonesAndPrefixes` over the zones. -/
def populateZone (zoneEntry : String × Zone) : DpaM Unit := do
  check fun s => validateZoneSiteName s.topologyW zoneEntry.1
  check fun _ => validateZone net beyond params order zoneEntry.1 zoneEntry.2
  let zone ← check fun _ => PrefixZone.ofThrift net beyond params order zoneEntry.2
  let zone ← (order.toList zoneEntry.2.nodeNames).foldlM
    (populateNodePrefix net params order zoneEntry.1) zone
  modifyZone zoneEntry.1 fun _ => zone

/-- `DeterministicPrefixAllocator::validatePopNodeZone`. -/
def validatePopNodeZone (s : AllocState Deterministic) : Except AllocFailure Unit :=
  forM s.topologyW.topology.nodes fun node =>
    refuse (node.popNode = true ∧ s.allocator.node2Zone node.name = none)
      ("POP node " ++ node.name ++ " is not in a zone")

/-- `DeterministicPrefixAllocator::populateZonesAndPrefixes`, in the order of the map. -/
def populateZonesAndPrefixes (zones : List (String × Zone)) : DpaM Unit := do
  modifyAllocator fun _ => {}
  forM zones (populateZone net beyond params order)
  check validatePopNodeZone
  let s ← get
  forM s.topologyW.topology.nodes (writeZonePrefixes net order params.seedPrefix)

/-- The constructor of `DeterministicPrefixAllocator`, for what `getPrefixAllocZones` returns. -/
def deterministicPrefixAllocator (allocate : DpaM Unit) :
    Option (List (String × Zone)) → DpaM Unit
  | none => allocate
  | some zones =>
    tryCatch (populateZonesAndPrefixes net beyond params order zones) fun failure =>
      if failure.isInvalidArgument then allocate else throw failure

end Populate

structure Traversal (zones : String → Option Zone) (entries : List (String × Zone)) : Prop where
  nodup : (keys entries).Nodup
  mem_iff : ∀ zoneName zone, (zoneName, zone) ∈ entries ↔ zones zoneName = some zone

theorem Traversal.of_nodup (nodup : (keys entries).Nodup) :
    Traversal (fun zoneName => find zoneName entries) entries where
  nodup := nodup
  mem_iff _ _ := (find_eq_some_iff nodup).symm

/-! ### What the checks establish -/

theorem readNetwork_eq_ok {net : NetworkUtils} {network : CIDRNetwork} :
    readNetwork net text = .ok network ↔ net.createNetwork text = .ok network := by
  unfold readNetwork
  cases net.createNetwork text with
  | ok other | error what => simp [Except.mapError]

/-- The space that `validateZone` counts for a zone prefix. -/
def textSpace (net : NetworkUtils) (beyond : Int → BitVec 32) (params : AcceptedParams)
    (text : String) : Nat :=
  match net.createNetwork text with
  | .ok network => Word32.networkToPrefixSpace beyond params network
  | .error _ => 0

/-- The value of `totalPrefixSpace` at the end of the loop of `validateZone`. -/
def totalPrefixSpace (net : NetworkUtils) (beyond : Int → BitVec 32) (params : AcceptedParams)
    (zone : Zone) : Nat :=
  (∑ text ∈ zone.zonePrefixes, textSpace net beyond params text) % 2 ^ 32

def StartInSeed (net : NetworkUtils) (params : AcceptedParams) (zone : Zone) : Prop :=
  ∀ text ∈ zone.zonePrefixes, ∃ network, net.createNetwork text = .ok network ∧
    network.InSubnet params.seedPrefix

def Zone.HasPrefix (net : NetworkUtils) (zone : Zone) (network : CIDRNetwork) : Prop :=
  ∃ text ∈ zone.zonePrefixes, net.createNetwork text = .ok network

/-- The prefix of a node of this name. -/
def PrefixOf (net : NetworkUtils) (w : TopologyWrapper) (nodeName : String)
    (network : CIDRNetwork) : Prop :=
  ∃ node text, w.getNode nodeName = some node ∧ node.nodePrefix = some text ∧
    net.createNetwork text = .ok network

variable {w : TopologyWrapper}

theorem PrefixOf.unique {net : NetworkUtils}
    {one two : CIDRNetwork} (first : PrefixOf net w nodeName one)
    (second : PrefixOf net w nodeName two) : one = two := by
  obtain ⟨_, _, found, given, parsed⟩ := first
  obtain ⟨_, _, otherFound, otherGiven, otherParsed⟩ := second
  cases found.symm.trans otherFound
  cases given.symm.trans otherGiven
  exact Except.ok.inj (parsed.symm.trans otherParsed)

theorem validateZoneSiteName_eq_ok :
    validateZoneSiteName w zoneName = .ok () ↔ w.getSite zoneName ≠ none := by
  rw [ne_eq, ← Option.isNone_iff_eq_none]
  exact failIf_eq_ok

section Checks

variable {net : NetworkUtils} {beyond : Int → BitVec 32} {params : AcceptedParams}
  {order : SetOrder}

theorem validateZonePrefixes_eq_ok {total result : Nat} (bounded : total < 2 ^ 32) :
    validateZonePrefixes net beyond params zoneName texts total = .ok result ↔
      (∀ text ∈ texts, ∃ network, net.createNetwork text = .ok network ∧
        network.InSubnet params.seedPrefix) ∧
      result = (total + (texts.map (textSpace net beyond params)).sum) % 2 ^ 32 := by
  induction texts generalizing total with
  | nil =>
    rw [validateZonePrefixes, map_nil, sum_nil, add_zero, mod_eq_of_lt bounded]
    simp [eq_comm]
  | cons text _ ih =>
    rw [validateZonePrefixes, except_bind_eq_ok]
    simp only [readNetwork_eq_ok, refuse, failIf_bind_eq_ok, not_not,
      ih (Nat.mod_lt _ (Nat.two_pow_pos 32)), forall_mem_cons]
    have space : ∀ network, net.createNetwork text = .ok network →
        textSpace net beyond params text = Word32.networkToPrefixSpace beyond params network := by
      intro _ parsed
      rw [textSpace, parsed]
    constructor
    · rintro ⟨network, parsed, inSubnet, later, sum⟩
      refine ⟨⟨⟨network, parsed, inSubnet⟩, later⟩, ?_⟩
      rw [sum, map_cons, sum_cons, space network parsed, Nat.mod_add_mod, Nat.add_assoc]
    · rintro ⟨⟨⟨network, parsed, inSubnet⟩, later⟩, sum⟩
      refine ⟨network, parsed, inSubnet, later, ?_⟩
      rw [sum, map_cons, sum_cons, space network parsed, Nat.mod_add_mod, Nat.add_assoc]

theorem validateZone_eq_ok :
    validateZone net beyond params order zoneName thriftZone = .ok () ↔
      StartInSeed net params thriftZone ∧
        thriftZone.nodeNames.card ≤ totalPrefixSpace net beyond params thriftZone := by
  have sum : ((order.toList thriftZone.zonePrefixes).map (textSpace net beyond params)).sum =
      ∑ text ∈ thriftZone.zonePrefixes, textSpace net beyond params text := by
    rw [← sum_toFinset _ (order.nodup _)]
    congr 1
    ext text
    rw [mem_toFinset, order.mem_toList]
  rw [validateZone, except_bind_eq_ok]
  simp only [validateZonePrefixes_eq_ok (Nat.two_pow_pos 32), order.mem_toList, sum, Nat.zero_add]
  constructor
  · rintro ⟨_, ⟨start, rfl⟩, passed⟩
    exact ⟨start, not_lt.mp (failIf_eq_ok.mp passed)⟩
  · intro ⟨start, enough⟩
    exact ⟨_, ⟨start, rfl⟩, failIf_eq_ok.mpr (not_lt.mpr enough)⟩

variable {zone zone' : PrefixZone}

theorem foldlM_insertZonePrefix
    (built : texts.foldlM (insertZonePrefix net beyond params) zone = .ok zone') :
    zone'.allocatedNodePrefixes = zone.allocatedNodePrefixes ∧
      ∀ network, network ∈ zone'.allocatedZonePrefixes ↔ network ∈ zone.allocatedZonePrefixes ∨
        ∃ text ∈ texts, net.createNetwork text = .ok network := by
  induction texts generalizing zone with
  | nil =>
    cases built
    simp
  | cons text _ ih =>
    rw [foldlM_cons, except_bind_eq_ok] at built
    obtain ⟨_, inserted, remaining⟩ := built
    rw [insertZonePrefix, except_bind_eq_ok] at inserted
    obtain ⟨network, parsed, inserted⟩ := inserted
    cases inserted
    obtain ⟨nodes, members⟩ := ih remaining
    refine ⟨nodes, fun other => ?_⟩
    have head : net.createNetwork text = .ok other ↔ other = network := by
      rw [readNetwork_eq_ok.mp parsed]
      simp [eq_comm]
    rw [members other]
    simp only [PrefixZone.addZonePrefix, Finset.mem_insert, exists_mem_cons_iff]
    tauto

theorem ofThrift_eq_ok (built : PrefixZone.ofThrift net beyond params order thriftZone = .ok zone) :
    zone.allocatedNodePrefixes = (fun _ => none) ∧
      ∀ network, network ∈ zone.allocatedZonePrefixes ↔ thriftZone.HasPrefix net network := by
  obtain ⟨nodes, members⟩ := foldlM_insertZonePrefix built
  refine ⟨nodes, fun network => ?_⟩
  rw [members network]
  simp [Zone.HasPrefix, order.mem_toList]

theorem validateNodePrefix_eq_ok :
    validateNodePrefix net params order node zone = .ok () ↔
      ∃ text network, node.nodePrefix = some text ∧ net.createNetwork text = .ok network ∧
        (∃ zonePrefix ∈ zone.allocatedZonePrefixes, network.InSubnet zonePrefix) ∧
        network.length = params.allocPrefixLen ∧
        ∀ owner, zone.allocatedNodePrefixes network = some owner → owner = node.name := by
  rw [validateNodePrefix]
  cases given : node.nodePrefix with
  | none => simp
  | some text =>
    simp only [Option.some.injEq, exists_and_left, exists_eq_left']
    cases parsed : net.createNetwork text with
    | error => simp
    | ok network =>
      simp only [refuse, Except.ok.injEq, exists_eq_left']
      cases zone.allocatedNodePrefixes network with
      | none | some owner => simp

theorem populateNodePrefix_ok
    (run : (populateNodePrefix net params order zoneName zone nodeName).run s = .ok zone' s') :
    ∃ node network, s.topologyW.getNode nodeName = some node ∧
      PrefixOf net s.topologyW nodeName network ∧
      (∃ zonePrefix ∈ zone.allocatedZonePrefixes, network.InSubnet zonePrefix) ∧
      network.length = params.allocPrefixLen ∧
      (∀ owner, zone.allocatedNodePrefixes network = some owner → owner = node.name) ∧
      zone' = zone.assignNodePrefix nodeName network ∧ s'.topologyW = s.topologyW := by
  rw [populateNodePrefix, get_bind_eq_ok] at run
  cases found : s.topologyW.getNode nodeName with
  | none =>
    rw [found] at run
    cases run
  | some node =>
    rw [found] at run
    simp only [check_bind_eq_ok] at run
    obtain ⟨_, valid, network, read, rest⟩ := run
    obtain ⟨text, _, given, parsed, inZone, length, owned⟩ := validateNodePrefix_eq_ok.mp valid
    rw [nodeNetwork, given] at read
    cases parsed.symm.trans (readNetwork_eq_ok.mp read)
    cases rest
    exact ⟨node, network, rfl, ⟨node, text, found, given, parsed⟩, inZone, length, owned, rfl, rfl⟩

/-! ### Accepted zones -/

/-- What a zone is known to satisfy once it has been added. -/
structure ZoneAccepted (net : NetworkUtils) (beyond : Int → BitVec 32) (params : AcceptedParams)
    (w : TopologyWrapper) (zoneName : String) (zone : Zone) : Prop where
  site : w.getSite zoneName ≠ none
  start : StartInSeed net params zone
  enough : zone.nodeNames.card ≤ totalPrefixSpace net beyond params zone
  members : ∀ nodeName ∈ zone.nodeNames, ∃ network, PrefixOf net w nodeName network ∧
    network.length = params.allocPrefixLen ∧
    ∃ zonePrefix, zone.HasPrefix net zonePrefix ∧ network.InSubnet zonePrefix
  unique : ∀ one ∈ zone.nodeNames, ∀ two ∈ zone.nodeNames, ∀ network,
    PrefixOf net w one network → PrefixOf net w two network → one = two

/-- The nodes of a zone that have been added, with their prefixes. -/
structure Members (net : NetworkUtils) (params : AcceptedParams) (w : TopologyWrapper)
    (thriftZone : Zone) (done : List String) (zone : PrefixZone) (s : AllocState Deterministic) :
    Prop where
  topology : s.topologyW = w
  zonePrefixes : ∀ network, network ∈ zone.allocatedZonePrefixes ↔ thriftZone.HasPrefix net network
  added : ∀ nodeName ∈ done, ∃ network, PrefixOf net w nodeName network ∧
    network.length = params.allocPrefixLen ∧
    (∃ zonePrefix, thriftZone.HasPrefix net zonePrefix ∧ network.InSubnet zonePrefix) ∧
    zone.allocatedNodePrefixes network = some nodeName

/-- One more node; its name is that of the node found, so that the owner of a prefix stays. -/
theorem Members.step (sites : SiteInvariant w)
    {done : List String} (members : Members net params w thriftZone done zone s)
    (run : (populateNodePrefix net params order zoneName zone nodeName).run s = .ok zone' s') :
    Members net params w thriftZone (done ++ [nodeName]) zone' s' := by
  obtain ⟨topology, zonePrefixes, added⟩ := members
  obtain ⟨node, network, found, isPrefix, ⟨zonePrefix, isZonePrefix, inSubnet⟩, length, owned, rfl,
    kept⟩ := populateNodePrefix_ok run
  rw [topology] at found isPrefix kept
  have named : node.name = nodeName := (sites.nodeIndex.sound.find_key found).2
  refine ⟨kept, zonePrefixes, fun other isAdded => ?_⟩
  rcases mem_append.mp isAdded with before | now
  · obtain ⟨taken, ofOther, otherLength, inZone, owner⟩ := added other before
    refine ⟨taken, ofOther, otherLength, inZone, ?_⟩
    have entered : (zone.assignNodePrefix nodeName network).allocatedNodePrefixes =
        update zone.allocatedNodePrefixes network (some nodeName) := rfl
    rw [entered]
    by_cases same : taken = network
    · rw [same, update_self]
      rw [same] at owner
      rw [owned other owner, named]
    · rw [update_of_ne same, owner]
  · rw [mem_singleton.mp now]
    exact ⟨network, isPrefix, length, ⟨zonePrefix, (zonePrefixes _).mp isZonePrefix, inSubnet⟩,
      update_self ..⟩

theorem populateZone_ok {zoneEntry : String × Zone} (sites : SiteInvariant s.topologyW)
    (run : (populateZone net beyond params order zoneEntry).run s = .ok () s') :
    ZoneAccepted net beyond params s.topologyW zoneEntry.1 zoneEntry.2 ∧
      s'.topologyW = s.topologyW := by
  simp only [populateZone, check_bind_eq_ok] at run
  obtain ⟨_, siteChecked, _, zoneChecked, _, built, run⟩ := run
  obtain ⟨final, t, looped, stored⟩ := bind_eq_ok.mp run
  have site := validateZoneSiteName_eq_ok.mp siteChecked
  obtain ⟨start, enough⟩ := validateZone_eq_ok.mp zoneChecked
  obtain ⟨_, zonePrefixes⟩ := ofThrift_eq_ok built
  have members : Members net params s.topologyW zoneEntry.2
      (order.toList zoneEntry.2.nodeNames) final t :=
    foldlM_invariant (Members net params s.topologyW zoneEntry.2)
      ⟨rfl, zonePrefixes, by simp⟩ looped
      fun _ nodeName _ u _ _ reached step => reached.step sites step
  have added := members.added
  simp only [order.mem_toList] at added
  cases stored
  refine ⟨⟨site, start, enough, ?_, ?_⟩, members.topology⟩
  · intro nodeName isMember
    obtain ⟨network, isPrefix, length, inZone, _⟩ := added nodeName isMember
    exact ⟨network, isPrefix, length, inZone⟩
  · intro one isOne two isTwo _ ofOne ofTwo
    obtain ⟨_, isFirst, _, _, ownerOne⟩ := added one isOne
    obtain ⟨_, isSecond, _, _, ownerTwo⟩ := added two isTwo
    rw [isFirst.unique ofOne] at ownerOne
    rw [isSecond.unique ofTwo] at ownerTwo
    exact Option.some.inj (ownerOne.symm.trans ownerTwo)

theorem zonesAccepted (sites : SiteInvariant s.topologyW)
    (run : (populateZonesAndPrefixes net beyond params order entries).run s = .ok () s') :
    ∀ zoneEntry ∈ entries, ZoneAccepted net beyond params s.topologyW zoneEntry.1 zoneEntry.2 := by
  rw [populateZonesAndPrefixes, modifyAllocator, modify_bind_eq_ok, bind_eq_ok] at run
  obtain ⟨_, t, looped, _⟩ := run
  have each := forM_each (fun u => u.topologyW = s.topologyW) rfl looped ?_
  · intro zoneEntry isEntry
    obtain ⟨u, _, same, ran⟩ := each zoneEntry isEntry
    have accepted := (populateZone_ok (by rw [same]; exact sites) ran).1
    rwa [same] at accepted
  · intro _ _ u _ same ran
    have kept := (populateZone_ok (by rw [same]; exact sites) ran).2
    exact kept.trans same

end Checks

/-! ### Consistency -/

/-- Zone prefixes are part of the seed prefix and share no address with another zone's, and neither
a node has two zones nor a prefix two nodes. -/
structure ZonesConsistent (net : NetworkUtils) (params : AcceptedParams) (w : TopologyWrapper)
    (zones : String → Option Zone) : Prop where
  inSeed : ∀ zoneName zone network, zones zoneName = some zone → zone.HasPrefix net network →
    network.family = params.seedPrefix.family ∧ ∀ x, network.Mem x → params.seedPrefix.Mem x
  disjoint : ∀ one two zoneOne zoneTwo networkOne networkTwo, zones one = some zoneOne →
    zones two = some zoneTwo → one ≠ two → zoneOne.HasPrefix net networkOne →
    zoneTwo.HasPrefix net networkTwo → networkOne.family = networkTwo.family →
    ∀ x, networkOne.Mem x → ¬ networkTwo.Mem x
  oneZone : ∀ one two zoneOne zoneTwo nodeName, zones one = some zoneOne →
    zones two = some zoneTwo → nodeName ∈ zoneOne.nodeNames → nodeName ∈ zoneTwo.nodeNames →
    one = two
  unique : ∀ one two network, PrefixOf net w one network → PrefixOf net w two network → one = two

/-- What the checks do not look at: zone prefixes are not shorter than the seed prefix, none starts
in another zone's, and no node outside the zones has the prefix of another node. -/
structure ZonesApart (net : NetworkUtils) (params : AcceptedParams) (w : TopologyWrapper)
    (zones : String → Option Zone) : Prop where
  longer : ∀ zoneName zone network, zones zoneName = some zone → zone.HasPrefix net network →
    params.seedPrefix.length ≤ network.length
  apart : ∀ one two zoneOne zoneTwo networkOne networkTwo, zones one = some zoneOne →
    zones two = some zoneTwo → one ≠ two → zoneOne.HasPrefix net networkOne →
    zoneTwo.HasPrefix net networkTwo → ¬ networkOne.InSubnet networkTwo
  outside : ∀ one two network, PrefixOf net w one network → PrefixOf net w two network →
    (∀ zoneName zone, zones zoneName = some zone → one ∉ zone.nodeNames) → one = two

section Consistency

variable {net : NetworkUtils} {beyond : Int → BitVec 32} {params : AcceptedParams}
  {zones : String → Option Zone}
  (accepted : ∀ zoneName zone, zones zoneName = some zone → ZoneAccepted net beyond params w zoneName zone)

include accepted

variable {network : CIDRNetwork}

theorem ZoneAccepted.inSubnet
    (isZone : zones zoneName = some thriftZone) (has : thriftZone.HasPrefix net network) :
    network.InSubnet params.seedPrefix := by
  obtain ⟨text, isText, parsed⟩ := has
  obtain ⟨_, otherParsed, inSubnet⟩ := (accepted zoneName thriftZone isZone).start text isText
  cases parsed.symm.trans otherParsed
  exact inSubnet

section

variable (apart : ZonesApart net params w zones)
include apart

variable {one two : String} {zoneOne zoneTwo : Zone}

theorem ZonesApart.disjoint
    {networkOne networkTwo : CIDRNetwork} (isOne : zones one = some zoneOne)
    (isTwo : zones two = some zoneTwo) (different : one ≠ two)
    (hasOne : zoneOne.HasPrefix net networkOne) (hasTwo : zoneTwo.HasPrefix net networkTwo) (x : Nat)
    (inOne : networkOne.Mem x) : ¬ networkTwo.Mem x := by
  intro inTwo
  have family : networkOne.family = networkTwo.family :=
    (ZoneAccepted.inSubnet accepted isOne hasOne).1.trans
      (ZoneAccepted.inSubnet accepted isTwo hasTwo).1.symm
  -- the one with the longer prefix would start in the other
  rcases le_total networkTwo.length networkOne.length with longer | shorter
  · exact apart.apart one two zoneOne zoneTwo _ _ isOne isTwo different hasOne hasTwo
      (Cidr.Network.inSubnet_of_mem family longer inOne inTwo)
  · exact apart.apart two one zoneTwo zoneOne _ _ isTwo isOne different.symm hasTwo hasOne
      (Cidr.Network.inSubnet_of_mem family.symm shorter inTwo inOne)

theorem ZonesApart.sameZone
    {nodeOne nodeTwo : String} (isOne : zones one = some zoneOne)
    (isTwo : zones two = some zoneTwo) (memberOne : nodeOne ∈ zoneOne.nodeNames)
    (memberTwo : nodeTwo ∈ zoneTwo.nodeNames) (ofOne : PrefixOf net w nodeOne network)
    (ofTwo : PrefixOf net w nodeTwo network) :
    one = two := by
  by_contra different
  obtain ⟨_, isFirst, _, _, hasOne, inOne⟩ :=
    (accepted one zoneOne isOne).members nodeOne memberOne
  obtain ⟨_, isSecond, _, _, hasTwo, inTwo⟩ :=
    (accepted two zoneTwo isTwo).members nodeTwo memberTwo
  rw [isFirst.unique ofOne] at inOne
  rw [isSecond.unique ofTwo] at inTwo
  exact apart.disjoint accepted isOne isTwo different hasOne hasTwo _ inOne.2 inTwo.2

theorem ZonesApart.unique
    (ofOne : PrefixOf net w one network) (ofTwo : PrefixOf net w two network) : one = two := by
  by_cases outsideOne : ∀ zoneName zone, zones zoneName = some zone → one ∉ zone.nodeNames
  · exact apart.outside one two network ofOne ofTwo outsideOne
  by_cases outsideTwo : ∀ zoneName zone, zones zoneName = some zone → two ∉ zone.nodeNames
  · exact (apart.outside two one network ofTwo ofOne outsideTwo).symm
  push Not at outsideOne outsideTwo
  obtain ⟨zoneName, zone, isZone, memberOne⟩ := outsideOne
  obtain ⟨_, _, isOther, memberTwo⟩ := outsideTwo
  have same := apart.sameZone accepted isZone isOther memberOne memberTwo ofOne ofTwo
  rw [← same] at isOther
  cases isZone.symm.trans isOther
  exact (accepted zoneName zone isZone).unique one memberOne two memberTwo network ofOne ofTwo

end

theorem zonesConsistent_iff : ZonesConsistent net params w zones ↔ ZonesApart net params w zones := by
  constructor
  · intro consistent
    refine ⟨?_, ?_, ?_⟩
    · intro zoneName zone network isZone has
      obtain ⟨family, part⟩ := consistent.inSeed zoneName zone network isZone has
      exact Cidr.Network.length_le_of_subset family part
    · intro one two zoneOne zoneTwo networkOne networkTwo isOne isTwo different hasOne hasTwo starts
      exact consistent.disjoint one two zoneOne zoneTwo networkOne networkTwo isOne isTwo different
        hasOne hasTwo starts.1 _ networkOne.mem_address starts.2
    · intro one two network ofOne ofTwo _
      exact consistent.unique one two network ofOne ofTwo
  · intro apart
    refine ⟨?_, ?_, ?_, ?_⟩
    · intro zoneName zone network isZone has
      have starts := ZoneAccepted.inSubnet accepted isZone has
      exact ⟨starts.1, fun x => starts.mem (apart.longer zoneName zone network isZone has)⟩
    · intro _ _ _ _ _ _ isOne isTwo different hasOne hasTwo _
      exact apart.disjoint accepted isOne isTwo different hasOne hasTwo
    · intro one _ zoneOne _ nodeName isOne isTwo memberOne memberTwo
      obtain ⟨_, isPrefix, _⟩ := (accepted one zoneOne isOne).members nodeName memberOne
      exact apart.sameZone accepted isOne isTwo memberOne memberTwo isPrefix isPrefix
    · intro _ _ _ ofOne ofTwo
      exact apart.unique accepted ofOne ofTwo

end Consistency

/-- An accepted stored allocation is consistent if and only if zone prefixes are apart and not
shorter than the seed prefix, and nodes outside the zones have prefixes of their own. -/
theorem persisted_zones_consistent_iff {net : NetworkUtils} {beyond : Int → BitVec 32}
    {params : AcceptedParams} {order : SetOrder} {mac : MacUtils} {zones : String → Option Zone}
    {entries : List (String × Zone)} {s s' : AllocState Deterministic}
    (loaded : Accepted mac (fun _ => True) s.topologyW) (traversal : Traversal zones entries)
    (populated : (populateZonesAndPrefixes net beyond params order entries).run s = .ok () s') :
    ZonesConsistent net params s.topologyW zones ↔ ZonesApart net params s.topologyW zones := by
  have accepted : ∀ zoneName zone, zones zoneName = some zone →
      ZoneAccepted net beyond params s.topologyW zoneName zone := by
    intro zoneName zone isZone
    exact zonesAccepted (SiteInvariant.accepted loaded) populated (zoneName, zone)
      ((traversal.mem_iff zoneName zone).mpr isZone)
  exact zonesConsistent_iff accepted

/-- A seed prefix of two bits for node prefixes of four. -/
def twoBits : AcceptedParams where
  seedPrefix :=
    { family := .V6, address := 0, length := 2
      length_le := by decide
      masked := dvd_zero _
      bounded := Cidr.Family.V6.two_pow_bitCount_pos }
  allocPrefixLen := 4
  seed_lt := by decide
  le_bitCount := by decide

def storedZones (prefixAtS prefixAtT : String) : List (String × Zone) :=
  [("S", { nodeNames := {"a"}, zonePrefixes := {prefixAtS} }),
    ("T", { nodeNames := {"b"}, zonePrefixes := {prefixAtT} })]

/-- A topology file with stored zones at two POP sites. -/
def storedTopology (prefixAtS prefixAtT prefixOfA prefixOfB : String) : Topology where
  sites := [{ name := "S" }, { name := "T" }]
  nodes := [{ name := "a", siteName := "S", popNode := true, nodePrefix := some prefixOfA },
    { name := "b", siteName := "T", popNode := true, nodePrefix := some prefixOfB }]
  zones := some fun zoneName => find zoneName (storedZones prefixAtS prefixAtT)

/-- The networks that the zone prefixes of the two halves denote. -/
def halves : List (String × CIDRNetwork) :=
  [("S", twoBits.seedPrefix.subnetAt 3 0), ("T", twoBits.seedPrefix.subnetAt 3 1)]

theorem halves_apart (sites : SiteInvariant w)
    (names : w.topology.nodes.map Node.name = ["a", "b"]) :
    ZonesApart .binary twoBits w fun zoneName => find zoneName (storedZones "6000" "6001") := by
  -- every zone prefix is one of two networks
  have networks : ∀ zoneName zone network, find zoneName (storedZones "6000" "6001") = some zone →
      zone.HasPrefix .binary network → (zoneName, network) ∈ halves := by
    rintro _ _ _ isZone ⟨_, isText, parsed⟩
    have member := (find_eq_some_iff (by decide)).mp isZone
    simp only [storedZones, mem_cons, not_mem_nil, or_false] at member
    rcases member with ⟨rfl, rfl⟩ | ⟨rfl, rfl⟩
    · rw [Finset.mem_singleton.mp isText] at parsed
      have isFirst : NetworkUtils.binary.createNetwork "6000" =
          .ok (twoBits.seedPrefix.subnetAt 3 0) := by decide
      simp [halves, ← Except.ok.inj (isFirst.symm.trans parsed)]
    · rw [Finset.mem_singleton.mp isText] at parsed
      have isSecond : NetworkUtils.binary.createNetwork "6001" =
          .ok (twoBits.seedPrefix.subnetAt 3 1) := by decide
      simp [halves, ← Except.ok.inj (isSecond.symm.trans parsed)]
  refine ⟨?_, ?_, ?_⟩
  · intro zoneName zone network isZone has
    have checked : ∀ entry ∈ halves, twoBits.seedPrefix.length ≤ entry.2.length := by decide
    exact checked _ (networks zoneName zone network isZone has)
  · intro one two zoneOne zoneTwo networkOne networkTwo isOne isTwo different hasOne hasTwo
    have checked : ∀ entry ∈ halves, ∀ other ∈ halves,
        entry.1 ≠ other.1 → ¬ entry.2.InSubnet other.2 := by decide
    exact checked _ (networks one zoneOne networkOne isOne hasOne) _
      (networks two zoneTwo networkTwo isTwo hasTwo) different
  · rintro one _ _ ⟨node, _, found, _⟩ _ outside
    obtain ⟨isNode, named⟩ := sites.nodeIndex.sound.find_key found
    have listed : one ∈ w.topology.nodes.map Node.name := mem_map.mpr ⟨node, isNode, named⟩
    rw [names] at listed
    simp only [mem_cons, not_mem_nil, or_false] at listed
    rcases listed with rfl | rfl
    · exact absurd (Finset.mem_singleton_self "a") (outside "S" _ rfl)
    · exact absurd (Finset.mem_singleton_self "b") (outside "T" _ rfl)

theorem exists_loaded (mac : MacUtils) (order : SetOrder) (topology : Topology) {α : Type}
    (view : TopologyWrapper → α) (seen : α)
    (inspected : (construct mac order topology true false).map view = .ok seen) :
    ∃ w, Accepted mac (fun _ => True) w ∧ view w = seen := by
  cases built : construct mac order topology true false with
  | error =>
    rw [built] at inspected
    cases inspected
  | ok w =>
    rw [built] at inspected
    exact ⟨w, ⟨order, topology, false, trivial, built⟩, Except.ok.inj inspected⟩

/-- An allocation stored in two halves of the seed prefix is consistent. -/
theorem halves_consistent : ∃ w s', Accepted (.ofCanonical [] (by decide)) (fun _ => True) w ∧
      (populateZonesAndPrefixes .binary maskedShift twoBits .sorted (storedZones "6000" "6001")).run
        (start w) = .ok () s' ∧
      ZonesConsistent .binary twoBits w
        fun zoneName => find zoneName (storedZones "6000" "6001") := by
  obtain ⟨w, loaded, seen⟩ := exists_loaded (.ofCanonical [] (by decide)) .sorted
    (storedTopology "6000" "6001" "60000" "60010")
    (fun w => (w.topology.nodes.map Node.name,
      returns ((populateZonesAndPrefixes .binary maskedShift twoBits .sorted
        (storedZones "6000" "6001")).run (start w)))) (["a", "b"], true)
    (by decide +kernel)
  obtain ⟨names, returned⟩ := Prod.mk.inj seen
  obtain ⟨_, s', populated⟩ := exists_of_returns returned
  have consistent := persisted_zones_consistent_iff (s := start w) loaded
    (Traversal.of_nodup (by decide)) populated
  exact ⟨w, s', loaded, populated,
    consistent.mpr (halves_apart (SiteInvariant.accepted loaded) names)⟩

/-- Two zones with the same zone prefix, and two nodes with the same prefix in them. -/
theorem shared_prefix_accepted : ∃ w s', Accepted (.ofCanonical [] (by decide)) (fun _ => True) w ∧
      (populateZonesAndPrefixes .binary maskedShift twoBits .sorted (storedZones "6000" "6000")).run
        (start w) = .ok () s' ∧
      ¬ ZonesConsistent .binary twoBits w
        fun zoneName => find zoneName (storedZones "6000" "6000") := by
  obtain ⟨w, loaded, seen⟩ := exists_loaded (.ofCanonical [] (by decide)) .sorted
    (storedTopology "6000" "6000" "60000" "60000")
    (fun w => ((w.getNode "a").bind Node.nodePrefix, (w.getNode "b").bind Node.nodePrefix,
      returns ((populateZonesAndPrefixes .binary maskedShift twoBits .sorted
        (storedZones "6000" "6000")).run (start w))))
    (some "60000", some "60000", true) (by decide +kernel)
  obtain ⟨prefixOfA, rest⟩ := Prod.mk.inj seen
  obtain ⟨prefixOfB, returned⟩ := Prod.mk.inj rest
  obtain ⟨_, s', populated⟩ := exists_of_returns returned
  refine ⟨w, s', loaded, populated, ?_⟩
  intro consistent
  have parsed : NetworkUtils.binary.createNetwork "60000" =
      .ok (twoBits.seedPrefix.subnetAt 4 0) := by decide
  obtain ⟨a, foundA, givenA⟩ := Option.bind_eq_some_iff.mp prefixOfA
  obtain ⟨b, foundB, givenB⟩ := Option.bind_eq_some_iff.mp prefixOfB
  have same := consistent.unique "a" "b" _ ⟨a, _, foundA, givenA, parsed⟩
    ⟨b, _, foundB, givenB, parsed⟩
  exact absurd same (by decide)

end Stored

section Exceptions

open Guarded TopologyWrapper Deterministic List Option AssocList EStateM

/-! ### Exceptions that are not handled -/

section Errors

variable {net : NetworkUtils} {beyond : Int → BitVec 32} {params : AcceptedParams}
  {order : SetOrder} {failure : AllocFailure}

theorem refuse_error {violated : Prop} [Decidable violated] {what : String}
    (thrown : refuse violated what = .error failure) : failure.isInvalidArgument = true := by
  obtain ⟨_, rfl⟩ := failIf_eq_error.mp thrown
  rfl

theorem readNetwork_error (thrown : readNetwork net text = .error failure) :
    ∀ network, net.createNetwork text ≠ .ok network := by
  intro _ parsed
  rw [readNetwork_eq_ok.mpr parsed] at thrown
  cases thrown

theorem validateZonePrefixes_error {total : Nat}
    (thrown : validateZonePrefixes net beyond params zoneName texts total = .error failure)
    (unhandled : failure.isInvalidArgument = false) :
    ∃ text ∈ texts, ∀ network, net.createNetwork text ≠ .ok network := by
  induction texts generalizing total with
  | nil => cases thrown
  | cons text _ ih =>
    rw [validateZonePrefixes, except_bind_eq_error] at thrown
    rcases thrown with unparsed | ⟨_, _, thrown⟩
    · exact ⟨text, by simp, readNetwork_error unparsed⟩
    rcases except_bind_eq_error.mp thrown with outside | ⟨_, _, later⟩
    · rw [refuse_error outside] at unhandled
      cases unhandled
    · obtain ⟨other, isLater, unparsed⟩ := ih later
      exact ⟨other, by simp [isLater], unparsed⟩

theorem validateZone_error
    (thrown : validateZone net beyond params order zoneName thriftZone = .error failure)
    (unhandled : failure.isInvalidArgument = false) :
    ∃ text ∈ thriftZone.zonePrefixes, ∀ network, net.createNetwork text ≠ .ok network := by
  rcases except_bind_eq_error.mp thrown with failed | ⟨_, _, tooMany⟩
  · obtain ⟨text, isText, unparsed⟩ := validateZonePrefixes_error failed unhandled
    exact ⟨text, (order.mem_toList _ _).mp isText, unparsed⟩
  · rw [refuse_error tooMany] at unhandled
    cases unhandled

theorem StartInSeed.exists_ofThrift (start : StartInSeed net params thriftZone)
    (beyond : Int → BitVec 32) (order : SetOrder) :
    ∃ zone, PrefixZone.ofThrift net beyond params order thriftZone = .ok zone := by
  have listed : ∀ text ∈ order.toList thriftZone.zonePrefixes,
      ∃ network, net.createNetwork text = .ok network := by
    intro text isText
    obtain ⟨network, parsed, _⟩ := start text ((order.mem_toList _ _).mp isText)
    exact ⟨network, parsed⟩
  rw [PrefixZone.ofThrift]
  generalize ({ nodes := thriftZone.nodeNames } : PrefixZone) = zone
  generalize order.toList thriftZone.zonePrefixes = texts at listed ⊢
  induction texts generalizing zone with
  | nil => exact ⟨zone, rfl⟩
  | cons text _ ih =>
    obtain ⟨_, isNetwork⟩ := listed text (by simp)
    rw [foldlM_cons, insertZonePrefix, readNetwork_eq_ok.mpr isNetwork]
    exact ih _ fun other isLater => listed other (by simp [isLater])

variable {zone : PrefixZone}

theorem validateNodePrefix_error
    (thrown : validateNodePrefix net params order node zone = .error failure)
    (unhandled : failure.isInvalidArgument = false) : node.nodePrefix = none := by
  rw [validateNodePrefix] at thrown
  cases given : node.nodePrefix with
  | none => rfl
  | some text =>
    rw [given] at thrown
    exfalso
    have handled : failure.isInvalidArgument = true := by
      cases parsed : net.createNetwork text with
      | error =>
        simp only [parsed] at thrown
        cases thrown
        rfl
      | ok network =>
        simp only [parsed] at thrown
        rcases except_bind_eq_error.mp thrown with outside | ⟨_, _, thrown⟩
        · exact refuse_error outside
        rcases except_bind_eq_error.mp thrown with length | ⟨_, _, thrown⟩
        · exact refuse_error length
        cases owner : zone.allocatedNodePrefixes network with
        | none =>
          rw [owner] at thrown
          cases thrown
        | some =>
          rw [owner] at thrown
          exact refuse_error thrown
    rw [handled] at unhandled
    cases unhandled

theorem nodeNetwork_of_valid (valid : validateNodePrefix net params order node zone = .ok ()) :
    ∃ network, nodeNetwork net node = .ok network := by
  obtain ⟨_, network, given, parsed, _⟩ := validateNodePrefix_eq_ok.mp valid
  rw [nodeNetwork, given]
  exact ⟨network, readNetwork_eq_ok.mpr parsed⟩

theorem populateNodePrefix_error
    (run : (populateNodePrefix net params order zoneName zone nodeName).run s = .error failure s')
    (unhandled : failure.isInvalidArgument = false) :
    ∃ node, s.topologyW.getNode nodeName = some node ∧ node.nodePrefix = none := by
  rw [populateNodePrefix, run_bind, run_get] at run
  simp only at run
  cases found : s.topologyW.getNode nodeName with
  | none =>
    rw [found] at run
    cases run
    cases unhandled
  | some node =>
    rw [found] at run
    refine ⟨node, rfl, ?_⟩
    rcases check_bind_eq_error.mp run with ⟨invalid, _⟩ | ⟨_, valid, run⟩
    · exact validateNodePrefix_error invalid unhandled
    obtain ⟨_, read⟩ := nodeNetwork_of_valid valid
    rcases check_bind_eq_error.mp run with ⟨unread, _⟩ | ⟨_, _, run⟩
    · rw [read] at unread
      cases unread
    · cases run

end Errors

/-! ### The state that an exception leaves -/

def AllocState.outer {α : Type} (s : AllocState α) : TopologyWrapper × AutoNodesOverrides :=
  (s.topologyW, s.config)

section Kept

variable (net : NetworkUtils) (beyond : Int → BitVec 32) (params : AcceptedParams)
  (order : SetOrder)

theorem keeps_modifyAllocator {α : Type} (f : α → α) :
    Keeps AllocState.outer (modifyAllocator f : AllocM α Unit) :=
  .modify fun _ => rfl

theorem keeps_populateNodePrefix (zoneName : String) (zone : PrefixZone) (nodeName : String) :
    Keeps AllocState.outer (populateNodePrefix net params order zoneName zone nodeName) := by
  refine .get_bind fun s => ?_
  cases s.topologyW.getNode nodeName with
  | none => exact .throw _
  | some =>
    refine (Keeps.check _).bind fun _ => (Keeps.check _).bind fun _ => ?_
    exact (keeps_modifyAllocator _).bind fun _ => .pure _

theorem keeps_populateZone (zoneEntry : String × Zone) :
    Keeps AllocState.outer (populateZone net beyond params order zoneEntry) := by
  refine (Keeps.check _).bind fun _ => (Keeps.check _).bind fun _ => (Keeps.check _).bind fun _ => ?_
  refine (Keeps.foldlM (keeps_populateNodePrefix net params order zoneEntry.1) _ _).bind fun _ => ?_
  exact keeps_modifyAllocator _

theorem writeZonePrefixes_neverFails (seedPrefix : CIDRNetwork) (node : Node)
    (s : AllocState Deterministic) : NeverFails (writeZonePrefixes net order seedPrefix node) s := by
  intro _ _ thrown
  rw [writeZonePrefixes] at thrown
  split at thrown
  · cases thrown
  · rw [run_bind, run_get] at thrown
    simp only at thrown
    cases zoned : s.allocator.node2Zone node.name with
    | none | some zoneName =>
      rw [zoned] at thrown
      cases thrown

variable {net beyond params order}

/-- An exception of `populateZonesAndPrefixes` is one of a zone, or of a POP node outside the zones.
-/
theorem populateZonesAndPrefixes_error {failure : AllocFailure}
    (run : (populateZonesAndPrefixes net beyond params order entries).run s = .error failure s') :
    s'.outer = s.outer ∧ (failure.isInvalidArgument = true ∨ ∃ zoneEntry ∈ entries, ∃ t,
      t.topologyW = s.topologyW ∧
        (populateZone net beyond params order zoneEntry).run t = .error failure s') := by
  rcases bind_eq_error.mp run with failed | ⟨_, _, reset, looped⟩
  · cases failed
  cases reset
  have zonesKeep := Keeps.forM (keeps_populateZone net beyond params order) entries
  rcases bind_eq_error.mp looped with failed | ⟨_, t, added, rest⟩
  · obtain ⟨zoneEntry, isEntry, t, same, thrown⟩ := forM_eq_error
      (fun t => t.topologyW = s.topologyW) rfl failed fun zoneEntry _ t _ same ran =>
        (congrArg Prod.fst ((keeps_populateZone net beyond params order zoneEntry).ok ran)).trans same
    have outer : s'.outer = ({ s with allocator := {} } : AllocState Deterministic).outer :=
      zonesKeep.error failed
    exact ⟨outer, .inr ⟨zoneEntry, isEntry, t, same, thrown⟩⟩
  rcases check_bind_eq_error.mp rest with ⟨popThrown, rfl⟩ | ⟨_, _, written⟩
  · have outer : s'.outer = ({ s with allocator := {} } : AllocState Deterministic).outer :=
      zonesKeep.ok added
    obtain ⟨_, _, outside⟩ := except_forM_eq_error popThrown
    exact ⟨outer, .inl (refuse_error outside)⟩
  · exact absurd written (NeverFails.forM (fun _ => True) trivial
      (fun node _ u _ => writeZonePrefixes_neverFails net order params.seedPrefix node u)
      (fun _ _ _ _ _ _ => trivial) failure s')

end Kept

/-! ### When the constructor falls back -/

/-- The stored zones can be read as far as the checks do: at sites that exist, zone prefixes denote
networks, and in zones that pass `validateZone` no node is without a prefix. -/
structure StoredReadable (net : NetworkUtils) (beyond : Int → BitVec 32) (params : AcceptedParams)
    (w : TopologyWrapper) (zones : String → Option Zone) : Prop where
  zonePrefixes : ∀ zoneName zone, zones zoneName = some zone → w.getSite zoneName ≠ none →
    ∀ text ∈ zone.zonePrefixes, ∃ network, net.createNetwork text = .ok network
  members : ∀ zoneName zone, zones zoneName = some zone → w.getSite zoneName ≠ none →
    StartInSeed net params zone →
    zone.nodeNames.card ≤ totalPrefixSpace net beyond params zone →
    ∀ nodeName ∈ zone.nodeNames, ∀ node, w.getNode nodeName = some node → node.nodePrefix ≠ none

/-- The constructor takes over stored zones that pass all checks, or allocates anew. -/
def FallsBack (net : NetworkUtils) (beyond : Int → BitVec 32) (params : AcceptedParams)
    (order : SetOrder) (entries : List (String × Zone)) (s : AllocState Deterministic)
    (allocate : DpaM Unit) : Prop :=
  (∃ s', (deterministicPrefixAllocator net beyond params order allocate (some entries)).run s =
      .ok () s' ∧
    ∀ zoneEntry ∈ entries, ZoneAccepted net beyond params s.topologyW zoneEntry.1 zoneEntry.2) ∨
  ∃ t, t.outer = s.outer ∧
    (deterministicPrefixAllocator net beyond params order allocate (some entries)).run s =
      allocate.run t

section Contained

variable {net : NetworkUtils} {beyond : Int → BitVec 32} {params : AcceptedParams}
  {order : SetOrder} {failure : AllocFailure}

variable {zoneEntry : String × Zone}

theorem populateZone_error
    (run : (populateZone net beyond params order zoneEntry).run s = .error failure s')
    (unhandled : failure.isInvalidArgument = false) :
    s.topologyW.getSite zoneEntry.1 ≠ none ∧
      ((∃ text ∈ zoneEntry.2.zonePrefixes, ∀ network, net.createNetwork text ≠ .ok network) ∨
        (StartInSeed net params zoneEntry.2 ∧
          zoneEntry.2.nodeNames.card ≤ totalPrefixSpace net beyond params zoneEntry.2 ∧
          ∃ nodeName ∈ zoneEntry.2.nodeNames, ∃ node,
            s.topologyW.getNode nodeName = some node ∧ node.nodePrefix = none)) := by
  rcases check_bind_eq_error.mp run with ⟨noSite, _⟩ | ⟨_, siteChecked, run⟩
  · rw [refuse_error noSite] at unhandled
    cases unhandled
  refine ⟨validateZoneSiteName_eq_ok.mp siteChecked, ?_⟩
  rcases check_bind_eq_error.mp run with ⟨invalid, _⟩ | ⟨_, zoneChecked, run⟩
  · exact .inl (validateZone_error invalid unhandled)
  obtain ⟨start, enough⟩ := validateZone_eq_ok.mp zoneChecked
  obtain ⟨_, built⟩ := start.exists_ofThrift beyond order
  rcases check_bind_eq_error.mp run with ⟨unread, _⟩ | ⟨_, _, run⟩
  · rw [built] at unread
    cases unread
  rcases bind_eq_error.mp run with failed | ⟨_, _, _, stored⟩
  · obtain ⟨nodeName, isListed, _, t, same, thrown⟩ := foldlM_eq_error
      (fun t => t.topologyW = s.topologyW) rfl failed fun nodeName _ before t _ _ same ran =>
        (congrArg Prod.fst
          ((keeps_populateNodePrefix net params order zoneEntry.1 before nodeName).ok ran)).trans same
    obtain ⟨node, found, unset⟩ := populateNodePrefix_error thrown unhandled
    rw [same] at found
    exact .inr ⟨start, enough, nodeName, (order.mem_toList _ _).mp isListed, node, found, unset⟩
  · cases stored

variable {zones : String → Option Zone}

theorem StoredReadable.handled (readable : StoredReadable net beyond params s.topologyW zones)
    (traversal : Traversal zones entries)
    (run : (populateZonesAndPrefixes net beyond params order entries).run s = .error failure s') :
    failure.isInvalidArgument = true := by
  obtain ⟨_, handled | ⟨zoneEntry, isEntry, t, same, thrown⟩⟩ := populateZonesAndPrefixes_error run
  · exact handled
  by_contra isUnhandled
  have unhandled : failure.isInvalidArgument = false := by simpa using isUnhandled
  have isZone := (traversal.mem_iff zoneEntry.1 zoneEntry.2).mp isEntry
  obtain ⟨site, broken⟩ := populateZone_error thrown unhandled
  rw [same] at site broken
  rcases broken with ⟨text, isText, unparsed⟩ | ⟨start, enough, nodeName, isMember, node, found, unset⟩
  · obtain ⟨network, parsed⟩ := readable.zonePrefixes _ _ isZone site text isText
    exact unparsed network parsed
  · exact readable.members _ _ isZone site start enough nodeName isMember node found unset

theorem run_deterministicPrefixAllocator (net : NetworkUtils) (beyond : Int → BitVec 32)
    (params : AcceptedParams) (order : SetOrder) (allocate : DpaM Unit)
    (entries : List (String × Zone)) (s : AllocState Deterministic) :
    (deterministicPrefixAllocator net beyond params order allocate (some entries)).run s =
      match (populateZonesAndPrefixes net beyond params order entries).run s with
      | .ok u s' => .ok u s'
      | .error failure s' =>
        if failure.isInvalidArgument then allocate.run s' else .error failure s' := by
  rw [deterministicPrefixAllocator, Guarded.run_tryCatch]
  cases (populateZonesAndPrefixes net beyond params order entries).run s with
  | ok => rfl
  | error =>
    simp only
    split
    · rfl
    · rfl

theorem StoredReadable.fallsBack (sites : SiteInvariant s.topologyW)
    (readable : StoredReadable net beyond params s.topologyW zones)
    (traversal : Traversal zones entries) (allocate : DpaM Unit) :
    FallsBack net beyond params order entries s allocate := by
  have run := run_deterministicPrefixAllocator net beyond params order allocate entries s
  cases outcome : (populateZonesAndPrefixes net beyond params order entries).run s with
  | ok u s' =>
    rw [outcome] at run
    exact .inl ⟨s', run, zonesAccepted sites outcome⟩
  | error _ s' =>
    rw [outcome] at run
    simp only [readable.handled traversal outcome] at run
    exact .inr ⟨s', (populateZonesAndPrefixes_error outcome).1, run⟩

theorem not_fallsBack
    (run : (populateZonesAndPrefixes net beyond params order entries).run s = .error failure s')
    (unhandled : failure.isInvalidArgument = false) :
    ¬ FallsBack net beyond params order entries s (pure ()) := by
  have ended := run_deterministicPrefixAllocator net beyond params order (pure ()) entries s
  rw [run] at ended
  simp only [unhandled] at ended
  rintro (⟨t, returned, _⟩ | ⟨t, _, returned⟩)
  · rw [ended] at returned
    cases returned
  · rw [ended] at returned
    cases returned

theorem populateZonesAndPrefixes_first {rest : List (String × Zone)}
    (thrown : (populateZone net beyond params order zoneEntry).run { s with allocator := {} } =
      .error failure s') :
    (populateZonesAndPrefixes net beyond params order (zoneEntry :: rest)).run s =
      .error failure s' := by
  have looped : (forM (zoneEntry :: rest) (populateZone net beyond params order)).run
      { s with allocator := {} } = .error failure s' := by
    exact bind_eq_error.mpr (.inl thrown)
  exact bind_eq_error.mpr (.inr ⟨(), _, rfl, bind_eq_error.mpr (.inl looped)⟩)

theorem Traversal.first (traversal : Traversal zones entries) (isEntry : zoneEntry ∈ entries) :
    Traversal zones (zoneEntry :: entries.erase zoneEntry) := by
  have perm := perm_cons_erase isEntry
  refine ⟨(perm.map Prod.fst).nodup_iff.mp traversal.nodup, fun zoneName zone => ?_⟩
  rw [← perm.mem_iff]
  exact traversal.mem_iff zoneName zone

theorem SetOrder.toList_first {name : String} {names : Finset String} (isMember : name ∈ names) :
    (SetOrder.first name).toList names = name :: Ascending.listing (names.erase name) :=
  if_pos isMember

theorem populateZone_unparsed (site : s.topologyW.getSite zoneEntry.1 ≠ none)
    (isText : text ∈ zoneEntry.2.zonePrefixes)
    (unparsed : ∀ network, net.createNetwork text ≠ .ok network) :
    ∃ what, (populateZone net beyond params (.first text) zoneEntry).run s =
      .error (.ipAddressFormat what) s := by
  cases parsed : net.createNetwork text with
  | ok network => exact absurd parsed (unparsed network)
  | error what =>
    refine ⟨what, ?_⟩
    refine check_bind_eq_error.mpr (.inr ⟨(), validateZoneSiteName_eq_ok.mpr site, ?_⟩)
    refine check_bind_eq_error.mpr (.inl ⟨?_, rfl⟩)
    rw [validateZone, SetOrder.toList_first isText]
    refine except_bind_eq_error.mpr (.inl ?_)
    rw [validateZonePrefixes, readNetwork, parsed]
    rfl

/-- A node without a prefix ends the constructor, if it is read first in a zone that is checked. -/
theorem populateZone_unset (site : s.topologyW.getSite zoneEntry.1 ≠ none)
    (start : StartInSeed net params zoneEntry.2)
    (enough : zoneEntry.2.nodeNames.card ≤ totalPrefixSpace net beyond params zoneEntry.2)
    (isMember : nodeName ∈ zoneEntry.2.nodeNames)
    (found : s.topologyW.getNode nodeName = some node) (unset : node.nodePrefix = none) :
    (populateZone net beyond params (.first nodeName) zoneEntry).run s =
      .error (.thrown .badOptionalAccess) s := by
  obtain ⟨zone, built⟩ := start.exists_ofThrift beyond (.first nodeName)
  refine check_bind_eq_error.mpr (.inr ⟨(), validateZoneSiteName_eq_ok.mpr site, ?_⟩)
  refine check_bind_eq_error.mpr (.inr ⟨(), validateZone_eq_ok.mpr ⟨start, enough⟩, ?_⟩)
  refine check_bind_eq_error.mpr (.inr ⟨zone, built, ?_⟩)
  rw [SetOrder.toList_first isMember]
  refine bind_eq_error.mpr (.inl (bind_eq_error.mpr (.inl ?_)))
  rw [populateNodePrefix, run_bind, run_get]
  simp only [found]
  refine check_bind_eq_error.mpr (.inl ⟨?_, rfl⟩)
  rw [validateNodePrefix, unset]

end Contained

/-- In every order of traversal the constructor takes over the stored zones or allocates anew, if
and only if the stored zones can be read: zone prefixes at sites that exist denote networks, and no
node of a zone that passes `validateZone` is without a prefix. -/
theorem stored_data_contained_iff (net : NetworkUtils) (beyond : Int → BitVec 32)
    (params : AcceptedParams) {mac : MacUtils} {zones : String → Option Zone}
    {entries : List (String × Zone)} {s : AllocState Deterministic}
    (loaded : Accepted mac (fun _ => True) s.topologyW) (traversal : Traversal zones entries) :
    (∀ order entries, Traversal zones entries →
      ∀ allocate, FallsBack net beyond params order entries s allocate) ↔
      StoredReadable net beyond params s.topologyW zones := by
  constructor
  · intro contained
    refine ⟨?_, ?_⟩
    · intro zoneName zone isZone site text isText
      by_contra unparsed
      have isEntry := (traversal.mem_iff zoneName zone).mpr isZone
      obtain ⟨what, thrown⟩ : ∃ what,
          (populateZone net beyond params (.first text) (zoneName, zone)).run
            { s with allocator := {} } = .error (.ipAddressFormat what) { s with allocator := {} } :=
        populateZone_unparsed site isText fun network parsed => unparsed ⟨network, parsed⟩
      exact not_fallsBack (populateZonesAndPrefixes_first thrown) rfl
        (contained (.first text) _ (traversal.first isEntry) (pure ()))
    · intro zoneName zone isZone site start enough nodeName isMember _ found unset
      have isEntry := (traversal.mem_iff zoneName zone).mpr isZone
      have thrown : (populateZone net beyond params (.first nodeName) (zoneName, zone)).run
          { s with allocator := {} } =
            .error (.thrown .badOptionalAccess) { s with allocator := {} } :=
        populateZone_unset site start enough isMember found unset
      exact not_fallsBack (populateZonesAndPrefixes_first thrown) rfl
        (contained (.first nodeName) _ (traversal.first isEntry) (pure ()))
  · intro readable _ _ traversal allocate
    exact readable.fallsBack (SiteInvariant.accepted loaded) traversal allocate

/-- A node with a prefix outside its zone ends no constructor. -/
theorem misplaced_node_contained : ∃ w, Accepted (.ofCanonical [] (by decide)) (fun _ => True) w ∧
      ∀ order entries,
        Traversal (fun zoneName => find zoneName (storedZones "6000" "6001")) entries →
        ∀ allocate, FallsBack .binary maskedShift twoBits order entries (start w)
          allocate := by
  obtain ⟨w, loaded, seen⟩ := exists_loaded (.ofCanonical [] (by decide)) .sorted
    (storedTopology "6000" "6001" "60000" "60000")
    (fun w => decide (∀ node ∈ w.topology.nodes, node.nodePrefix ≠ none)) true (by decide)
  have given := of_decide_eq_true seen
  have sites := SiteInvariant.accepted loaded
  have contained := stored_data_contained_iff .binary maskedShift twoBits (s := start w) loaded
    (Traversal.of_nodup (show (keys (storedZones "6000" "6001")).Nodup by decide))
  refine ⟨w, loaded, contained.mpr ⟨?_, ?_⟩⟩
  · intro _ _ isZone _ text isText
    have member := (find_eq_some_iff (by decide)).mp isZone
    have parsed : ∀ zoneEntry ∈ storedZones "6000" "6001", ∀ text ∈ zoneEntry.2.zonePrefixes,
        (Cidr.Network.ofBits text).isSome = true := by decide
    obtain ⟨network, isNetwork⟩ := isSome_iff_exists.mp (parsed _ member text isText)
    exact ⟨network, by simp only [NetworkUtils.binary, isNetwork]⟩
  · intro _ _ _ _ _ _ _ _ node found
    exact given node (sites.nodeIndex.sound.find_key found).1

/-- A zone prefix that denotes no network ends the constructor. -/
theorem unparsable_zone_prefix_propagates :
    ∃ w, Accepted (.ofCanonical [] (by decide)) (fun _ => True) w ∧
      ¬ FallsBack .binary maskedShift twoBits .sorted (storedZones "prefix" "6001")
        (start w) (pure ()) := by
  obtain ⟨w, loaded, seen⟩ := exists_loaded (.ofCanonical [] (by decide)) .sorted
    (storedTopology "prefix" "6001" "60000" "60010") (fun w => (w.getSite "S").isSome) true
    (by decide)
  have site : w.getSite "S" ≠ none := ne_none_iff_isSome.mpr seen
  have invalid : validateZone .binary maskedShift twoBits .sorted "S"
      { nodeNames := {"a"}, zonePrefixes := {"prefix"} } = .error (.ipAddressFormat "prefix") := rfl
  have thrown : (populateZone .binary maskedShift twoBits .sorted
      ("S", { nodeNames := {"a"}, zonePrefixes := {"prefix"} })).run (start w) =
        .error (.ipAddressFormat "prefix") (start w) :=
    check_bind_eq_error.mpr (.inr ⟨(), validateZoneSiteName_eq_ok.mpr site,
      check_bind_eq_error.mpr (.inl ⟨invalid, rfl⟩)⟩)
  exact ⟨w, loaded, not_fallsBack (populateZonesAndPrefixes_first thrown) rfl⟩

end Exceptions

end Terragraph
