/-
Module: Terragraph.PrefixAlloc.Centralized
Purpose: The class `CentralizedPrefixAllocator`, what its member functions do, the given parameters
  with their checks, and the numbers of prefixes by 32-bit shifts.
Trusted boundary: human-reviewed embedding of `CentralizedPrefixAllocator.cpp`,
  `BasePrefixAllocator.cpp` and of the shifts
Main exports: Centralized, GivenAllocParams, prefix_counts_exact_iff
-/
import Terragraph.PrefixAlloc.NodePrefixes
import Terragraph.Topology.Atomicity

namespace Terragraph

section Allocator

open Guarded

/-- `class CentralizedPrefixAllocator`: `prefix2NodeName_`. -/
structure Centralized where
  prefix2NodeName : CIDRNetwork → Option String

abbrev CpaM := AllocM Centralized

def Node.givenPrefix (node : Node) : Option String :=
  node.nodePrefix.filter (· ≠ "")

section Centralized

variable (net : NetworkUtils) (params : PrefixAllocParams)

/-! ### Checks -/

/-- The beginning of the messages of `validatePrefix`. -/
def invalidPrefix (text nodeName : String) : String :=
  "Invalid prefix (" ++ text ++ ") for " ++ nodeName

/-- The checks of `validatePrefix` after the text has been parsed. -/
def validateNetwork (allocated : CIDRNetwork → Option String) (nodeName text : String)
    (validateSubnet : Bool) (network : CIDRNetwork) : Except ControllerError Unit := do
  reject (validateSubnet = true ∧ ¬ network.InSubnet params.seedPrefix)
    (invalidPrefix text nodeName ++ " (not in subnet of network prefix " ++
      net.networkToString params.seedPrefix ++ ")")
  reject (network.length ≠ params.allocPrefixLen)
    (invalidPrefix text nodeName ++ " (longer than allocPrefixLen (" ++
      toString params.allocPrefixLen ++ ") bits)")
  match allocated network with
  | none => .ok ()
  | some owner =>
    reject (owner ≠ nodeName)
      (invalidPrefix text nodeName ++ " (prefix already allocated to node " ++ owner ++ ")")

/-- `CentralizedPrefixAllocator::validatePrefix`. -/
def validatePrefix (allocated : CIDRNetwork → Option String) (node : Node)
    (validateSubnet : Bool) : Except ControllerError Unit :=
  match node.givenPrefix with
  | none => .ok ()
  | some text =>
    match net.createNetwork text with
    | .error what =>
      .error (.invalidArgument (invalidPrefix text node.name ++ ", err: " ++ what))
    | .ok network => validateNetwork net params allocated node.name text validateSubnet network

/-- Run `validatePrefix` on the prefixes allocated so far. -/
def checkPrefix (node : Node) (validateSubnet : Bool) : CpaM Unit :=
  check fun s => (validatePrefix net params s.allocator.prefix2NodeName node validateSubnet).mapError
    AllocFailure.thrown

/-! ### Allocation -/

/-- `CentralizedPrefixAllocator::getNextUnallocatedPrefix`. -/
def Centralized.getNextUnallocatedPrefix : CpaM CIDRNetwork := do
  let s ← get
  match ← firstUnallocated net s.allocator.prefix2NodeName params.seedPrefix
      params.allocPrefixLen (networkToPrefixSpace params.seedPrefix params.allocPrefixLen) 0 with
  | some newPrefix => return newPrefix
  | none => throwInvalidArgument "No available prefixes"

/-- `prefix2NodeName_[network] = nodeName`. -/
def registerPrefix (network : CIDRNetwork) (nodeName : Option String) : CpaM Unit :=
  modifyAllocator fun cpa =>
    { cpa with prefix2NodeName := Function.update cpa.prefix2NodeName network nodeName }

/-- `CentralizedPrefixAllocator::assignPrefixToNode`. -/
def assignPrefixToNode (nodeName : String) (network : CIDRNetwork) : CpaM Unit := do
  registerPrefix network (some nodeName)
  onTopology (setNodePrefix nodeName (some (net.networkToString network)))

/-- Give a node the next prefix. -/
def allocateToNode (node : Node) : CpaM Unit := do
  let newPrefix ← Centralized.getNextUnallocatedPrefix net params
  checkPrefix net params { node with nodePrefix := some (net.networkToString newPrefix) } true
  assignPrefixToNode net node.name newPrefix

/-- `prefix2NodeName_.clear()`. -/
def clearPrefixes : CpaM Unit :=
  modifyAllocator fun _ => { prefix2NodeName := fun _ => none }

/-- The first loop body of `populatePrefixes`: the copy of the node, without a prefix outside the
seed prefix. -/
def registerGivenPrefix (node : Node) : CpaM Node :=
  match node.givenPrefix with
  | none => return node
  | some text => do
    checkPrefix net params node false
    let network ← createNetwork net text
    if network.InSubnet params.seedPrefix then
      registerPrefix network (some node.name)
      return node
    else
      return { node with nodePrefix := none }

/-- The body of the second loop of `populatePrefixes`. -/
def assignMissingPrefix (node : Node) : CpaM Unit :=
  if node.givenPrefix = none then allocateToNode net params node else pure ()

/-- `CentralizedPrefixAllocator::populatePrefixes`. -/
def Centralized.populatePrefixes : CpaM Unit := do
  clearPrefixes
  let s ← get
  let allNodes ← s.topologyW.topology.nodes.mapM (registerGivenPrefix net params)
  forM allNodes (assignMissingPrefix net params)

/-- `CentralizedPrefixAllocator::allocate`. -/
def Centralized.allocate : CpaM Unit := do
  clearPrefixes
  let s ← get
  forM s.topologyW.topology.nodes (allocateToNode net params)

/-! ### Changes of the topology -/

/-- `CentralizedPrefixAllocator::addNode`. -/
def Centralized.addNode (node : Node) : CpaM Unit := do
  let text ← match node.givenPrefix with
    | some text => pure text
    | none => do
      let newPrefix ← Centralized.getNextUnallocatedPrefix net params
      pure (net.networkToString newPrefix)
  checkPrefix net params { node with nodePrefix := some text } true
  let network ← createNetwork net text
  assignPrefixToNode net node.name network

/-- `CentralizedPrefixAllocator::delNode`. -/
def Centralized.delNode (node : Node) : CpaM Unit :=
  match node.givenPrefix with
  | none => return ()
  | some text => do
    let network ← createNetwork net text
    registerPrefix network none

/-- `CentralizedPrefixAllocator::editNode`. -/
def Centralized.editNode (oldNode newNode : Node) : CpaM Unit :=
  match oldNode.nodePrefix with
  | none => return ()
  | some text =>
    if newNode.name ≠ "" ∧ newNode.name ≠ oldNode.name then do
      let network ← createNetwork net text
      let s ← get
      if s.allocator.prefix2NodeName network ≠ none then
        registerPrefix network (some newNode.name)
    else return ()

/-- The centralized allocator.  It ignores links and sites. -/
def centralized : PrefixAllocator Centralized where
  addNode := Centralized.addNode net params
  delNode := Centralized.delNode net
  editNode := Centralized.editNode net
  addLink _ := pure ()
  editSite _ _ := pure ()
  allocate := Centralized.allocate net params

end Centralized

open List Function EStateM

def seedPrefixes (params : PrefixAllocParams) : List CIDRNetwork :=
  (range (networkToPrefixSpace params.seedPrefix params.allocPrefixLen)).map
    (params.seedPrefix.subnetAt params.allocPrefixLen)

def nextPrefix (params : PrefixAllocParams) (allocated : CIDRNetwork → Option String) :
    Option CIDRNetwork :=
  (seedPrefixes params).find? (allocated · = none)

/-- The state after the owner of a prefix has been set. -/
def owning (network : CIDRNetwork) (owner : Option String) (s : AllocState Centralized) :
    AllocState Centralized :=
  { s with
    allocator := ⟨update s.allocator.prefix2NodeName network owner⟩ }

/-- The state after a node has been given a prefix. -/
def entered (net : NetworkUtils) (nodeName : String) (network : CIDRNetwork)
    (s : AllocState Centralized) : AllocState Centralized :=
  { owning network (some nodeName) s with
    topologyW := withPrefixes net (update (fun _ => none) nodeName (some network))
      s.topologyW }

section Equations

variable (net : NetworkUtils) (params : PrefixAllocParams) {s : AllocState Centralized} {node : Node}

variable {allocated : CIDRNetwork → Option String} {network : CIDRNetwork}

theorem nextPrefix_eq_some (found : nextPrefix params allocated = some network) :
    network ∈ seedPrefixes params ∧ allocated network = none :=
  ⟨mem_of_find?_eq_some found, by simpa using find?_some found⟩

theorem givenPrefix_text {text : String} (nonempty : text ≠ "") :
    ({ node with nodePrefix := some text } : Node).givenPrefix = some text := by
  simp [Node.givenPrefix, nonempty]

theorem mem_seedPrefixes (listed : network ∈ seedPrefixes params) :
    network.InSubnet params.seedPrefix ∧ network.length = params.allocPrefixLen := by
  obtain ⟨i, inRange, rfl⟩ := mem_map.mp listed
  have bound := mem_range.mp inRange
  rw [networkToPrefixSpace_eq] at bound
  have has : params.seedPrefix.HasSubnet params.allocPrefixLen i :=
    ⟨params.seed_lt.le, params.le_bitCount, bound⟩
  rw [Cidr.Network.subnetAt_eq has]
  exact ⟨Cidr.Network.subnet_inSubnet has, rfl⟩

theorem validatePrefix_next (found : nextPrefix params allocated = some network) (node : Node) :
    validatePrefix net params allocated
      { node with nodePrefix := some (net.networkToString network) } true = .ok () := by
  obtain ⟨listed, free⟩ := nextPrefix_eq_some params found
  obtain ⟨inSeed, length⟩ := mem_seedPrefixes params listed
  rw [validatePrefix, givenPrefix_text (net.networkToString_ne_empty network)]
  simp only [net.createNetwork_networkToString, validateNetwork, reject_bind_eq_ok, not_not, length,
    free, inSeed, true_and, ne_eq]

variable {validateSubnet : Bool}

theorem validatePrefix_ok {text : String} (given : node.givenPrefix = some text)
    (passed : validatePrefix net params allocated node validateSubnet = .ok ()) :
    ∃ network, net.createNetwork text = .ok network ∧
      ∀ owner, allocated network = some owner → owner = node.name := by
  rw [validatePrefix, given] at passed
  simp only at passed
  cases parsed : net.createNetwork text with
  | error =>
    rw [parsed] at passed
    cases passed
  | ok network =>
    rw [parsed] at passed
    simp only [validateNetwork, reject_bind_eq_ok] at passed
    refine ⟨network, rfl, fun _ isOwner => ?_⟩
    have last := passed.2.2
    rw [isOwner] at last
    simpa using last

theorem validatePrefix_congr {given stored : Node} (record : SameRecord given stored) :
    validatePrefix net params allocated stored validateSubnet =
      validatePrefix net params allocated given validateSubnet := by
  rw [validatePrefix, validatePrefix, Node.givenPrefix, Node.givenPrefix, record.nodePrefix,
    record.name]

theorem run_nextPrefix (s : AllocState Centralized) :
    (Centralized.getNextUnallocatedPrefix net params).run s =
      match nextPrefix params s.allocator.prefix2NodeName with
      | some network => .ok network s
      | none => .error (.thrown (.invalidArgument "No available prefixes")) s := by
  have scanned := run_firstUnallocated (s := s) net s.allocator.prefix2NodeName params.seed_lt.le
    params.le_bitCount
    (show 0 + networkToPrefixSpace params.seedPrefix params.allocPrefixLen ≤ _ by
      rw [Nat.zero_add, networkToPrefixSpace_eq])
  rw [Centralized.getNextUnallocatedPrefix, run_bind, run_get]
  simp only
  rw [run_bind, scanned, nextPrefix, seedPrefixes, range_eq_range']
  cases ((range' 0 (networkToPrefixSpace params.seedPrefix params.allocPrefixLen)).map
      (params.seedPrefix.subnetAt params.allocPrefixLen)).find?
      (s.allocator.prefix2NodeName · = none) with
  | none | some network => rfl

theorem run_assignPrefixToNode (sites : SiteInvariant s.topologyW)
    (stored : ∃ other ∈ s.topologyW.topology.nodes, other.name = node.name)
    (network : CIDRNetwork) :
    (assignPrefixToNode net node.name network).run s =
      .ok () (entered net node.name network s) := by
  obtain ⟨_, isOther, named⟩ := stored
  have written := run_setNodePrefix_once net sites isOther network
  rw [named] at written
  have onState : (onTopology (setNodePrefix node.name (some (net.networkToString network))) :
      CpaM Unit).run (owning network (some node.name) s) = .ok () (entered net node.name network s) :=
    onTopology_eq_ok.mpr ⟨_, written, rfl⟩
  exact onState

theorem run_checkPrefix_bind {rest : CpaM Unit} :
    (do checkPrefix net params node validateSubnet; rest : CpaM Unit).run s =
      match validatePrefix net params s.allocator.prefix2NodeName node validateSubnet with
      | .ok _ => rest.run s
      | .error error => .error (.thrown error) s := by
  cases checked : validatePrefix net params s.allocator.prefix2NodeName node validateSubnet with
  | ok => exact run_check_bind (by rw [checked]; rfl)
  | error => exact check_bind_eq_error.mpr (.inl ⟨by rw [checked]; rfl, rfl⟩)

theorem run_allocateToNode (sites : SiteInvariant s.topologyW)
    (stored : ∃ other ∈ s.topologyW.topology.nodes, other.name = node.name) :
    (allocateToNode net params node).run s =
      match nextPrefix params s.allocator.prefix2NodeName with
      | some network => .ok () (entered net node.name network s)
      | none => .error (.thrown (.invalidArgument "No available prefixes")) s := by
  rw [allocateToNode, run_bind, run_nextPrefix]
  cases found : nextPrefix params s.allocator.prefix2NodeName with
  | none => rfl
  | some network =>
    simp only
    rw [run_checkPrefix_bind, validatePrefix_next net params found]
    exact run_assignPrefixToNode net sites stored network

/-- `addNode` gives a node its own prefix if that is valid, and the next one if it brings none. -/
theorem Centralized.run_addNode (sites : SiteInvariant s.topologyW)
    (stored : ∃ other ∈ s.topologyW.topology.nodes, other.name = node.name) :
    (Centralized.addNode net params node).run s = match node.givenPrefix with
      | none =>
        match nextPrefix params s.allocator.prefix2NodeName with
        | some network => .ok () (entered net node.name network s)
        | none => .error (.thrown (.invalidArgument "No available prefixes")) s
      | some text =>
        match validatePrefix net params s.allocator.prefix2NodeName node true,
          net.createNetwork text with
        | .error error, _ => .error (.thrown error) s
        | .ok _, .ok network => .ok () (entered net node.name network s)
        | .ok _, .error what => .error (.ipAddressFormat what) s := by
  rw [Centralized.addNode]
  cases given : node.givenPrefix with
  | none =>
    simp only [pure_bind]
    rw [run_bind, run_nextPrefix]
    cases found : nextPrefix params s.allocator.prefix2NodeName with
    | none => rfl
    | some network =>
      simp only
      rw [run_checkPrefix_bind, validatePrefix_next net params found]
      simp only [createNetwork, net.createNetwork_networkToString]
      exact run_assignPrefixToNode net sites stored network
  | some text =>
    have same : ({ node with nodePrefix := some text } : Node) = node := by
      obtain ⟨isPrefix, _⟩ := Option.filter_eq_some_iff.mp given
      rw [← isPrefix]
    simp only [pure_bind, same]
    rw [run_checkPrefix_bind]
    cases validatePrefix net params s.allocator.prefix2NodeName node true with
    | error => rfl
    | ok =>
      simp only [createNetwork]
      cases net.createNetwork text with
      | error => rfl
      | ok network => exact run_assignPrefixToNode net sites stored network

theorem Centralized.run_delNode : (Centralized.delNode net node).run s = match node.givenPrefix with
      | none => .ok () s
      | some text =>
        match net.createNetwork text with
        | .error what => .error (.ipAddressFormat what) s
        | .ok network => .ok () (owning network none s) := by
  rw [Centralized.delNode]
  cases node.givenPrefix with
  | none => rfl
  | some text =>
    simp only [createNetwork]
    cases net.createNetwork text with
    | error what | ok network => rfl

theorem Centralized.run_editNode {newNode : Node} : (Centralized.editNode net node newNode).run s =
      match node.nodePrefix with
      | none => .ok () s
      | some text =>
        if newNode.name ≠ "" ∧ newNode.name ≠ node.name then
          match net.createNetwork text with
          | .error what => .error (.ipAddressFormat what) s
          | .ok network =>
            if s.allocator.prefix2NodeName network ≠ none then
              .ok () (owning network (some newNode.name) s)
            else .ok () s
        else .ok () s := by
  rw [Centralized.editNode]
  cases node.nodePrefix with
  | none => rfl
  | some text =>
    simp only
    split
    · simp only [createNetwork]
      cases net.createNetwork text with
      | error => rfl
      | ok =>
        simp only [pure_bind]
        rw [run_bind, run_get]
        simp only
        split
        · rfl
        · rfl
    · rfl

end Equations

end Allocator

section Words

open Finset Nat

/-! ### Parameters -/

/-- `thrift::PrefixAllocParams`. -/
structure GivenAllocParams where
  seedPrefix : String := ""
  allocPrefixLen : Int := 0
deriving DecidableEq

/-- `prefixAllocParams_`, with what `validatePrefixAllocParams` establishes: the length is compared
with the bits of IPv6 for either family. -/
structure AcceptedParams where
  seedPrefix : CIDRNetwork
  allocPrefixLen : Nat
  seed_lt : seedPrefix.length < allocPrefixLen
  le_bitCount : allocPrefixLen ≤ Cidr.Family.V6.bitCount

/-- `BasePrefixAllocator::validatePrefixAllocParams`. -/
def validatePrefixAllocParams (net : NetworkUtils) (given : GivenAllocParams) :
    Except ControllerError Unit :=
  match net.createNetwork given.seedPrefix with
  | .error what =>
    .error (.invalidArgument ("Invalid seed prefix " ++ given.seedPrefix ++
      " for centralized prefix allocation: " ++ what))
  | .ok network => do
    reject (given.allocPrefixLen < 0)
      ("Invalid allocation prefix length `" ++ toString given.allocPrefixLen ++
        "` for centralized prefix allocation: allocPrefixLen is less than 0")
    reject (given.allocPrefixLen.toNat ≤ network.length ∨
        given.allocPrefixLen.toNat > Cidr.Family.V6.bitCount)
      ("invalid allocation prefix length `" ++ toString given.allocPrefixLen ++
        "` for centralized prefix allocation: allocPrefixLen is not greater than the " ++
        "seed_prefix netmask `" ++ toString network.length ++ "`, or it is greater than 128.")

/-- The parameters have been accepted and read as `params`. -/
structure AcceptedAs (net : NetworkUtils) (given : GivenAllocParams) (params : AcceptedParams) :
    Prop where
  valid : validatePrefixAllocParams net given = .ok ()
  seedPrefix : net.createNetwork given.seedPrefix = .ok params.seedPrefix
  allocPrefixLen : given.allocPrefixLen = params.allocPrefixLen

theorem exists_accepted {net : NetworkUtils} {given : GivenAllocParams}
    (valid : validatePrefixAllocParams net given = .ok ()) :
    ∃ params, AcceptedAs net given params := by
  have passed := valid
  rw [validatePrefixAllocParams] at passed
  cases parsed : net.createNetwork given.seedPrefix with
  | error =>
    rw [parsed] at passed
    cases passed
  | ok network =>
    rw [parsed] at passed
    simp only [reject_bind_eq_ok, reject_eq_ok] at passed
    refine ⟨⟨network, given.allocPrefixLen.toNat, by omega, by omega⟩, valid, parsed, ?_⟩
    simp only
    omega

/-! ### Counts -/

/-- The value of `1 << amount`, a 32-bit `int`, with what the machine does for an undefined amount.
-/
def shiftOne (beyond : Int → BitVec 32) (amount : Int) : BitVec 32 :=
  if 0 ≤ amount ∧ amount < 32 then 1#32 <<< amount.toNat else beyond amount

variable {network : CIDRNetwork}

section Counts

variable (beyond : Int → BitVec 32) (params : AcceptedParams)

/-- `1 << (allocPrefixLen - network.second)`. -/
def shiftedOne (network : CIDRNetwork) : BitVec 32 :=
  shiftOne beyond (params.allocPrefixLen - network.length)

/-- The shift as a `uint32_t`: `prefixCount` in both functions `getNextUnallocatedPrefix`. -/
def prefixCount (network : CIDRNetwork) : Nat :=
  (shiftedOne beyond params network).toNat

/-- `DeterministicPrefixAllocator::networkToPrefixSpace`, with lengths of type `uint32_t`. -/
def Word32.networkToPrefixSpace (network : CIDRNetwork) : Nat :=
  (shiftOne beyond (((params.allocPrefixLen : Int) - network.length) % 2 ^ 32)).toNat

/-- The shift as an `int`: `prefixSpace` in the constructor of `PrefixZone`. -/
def prefixSpace (network : CIDRNetwork) : Int :=
  (shiftedOne beyond params network).toInt

def AcceptedParams.total (network : CIDRNetwork) : Nat :=
  2 ^ (params.allocPrefixLen - network.length)

/-- A zone prefix inside the seed prefix, from which prefixes can be allocated. -/
structure AcceptedParams.IsZonePrefix (network : CIDRNetwork) : Prop where
  inSubnet : network.InSubnet params.seedPrefix
  seed_le : params.seedPrefix.length ≤ network.length
  le_alloc : network.length ≤ params.allocPrefixLen

theorem AcceptedParams.isZonePrefix_seed : params.IsZonePrefix params.seedPrefix where
  inSubnet := ⟨rfl, params.seedPrefix.mem_address⟩
  seed_le := le_rfl
  le_alloc := params.seed_lt.le

theorem shiftOne_exact {amount : Nat} (small : amount ≤ 30) :
    (shiftOne beyond amount).toNat = 2 ^ amount ∧ (shiftOne beyond amount).toInt = 2 ^ amount := by
  have defined : (0 : Int) ≤ amount ∧ (amount : Int) < 32 := by omega
  have bound : 2 ^ amount ≤ 2 ^ 30 := Nat.pow_le_pow_right (by decide) small
  have unsigned : (shiftOne beyond amount).toNat = 2 ^ amount := by
    rw [shiftOne, if_pos defined, Int.toNat_natCast, BitVec.toNat_shiftLeft, shiftLeft_eq]
    simp only [BitVec.toNat_ofNat, reducePow, reduceMod, one_mul]
    exact mod_eq_of_lt (by omega)
  refine ⟨unsigned, ?_⟩
  rw [BitVec.toInt_eq_toNat_of_lt (by omega)]
  norm_cast

variable {beyond params}

theorem counts_exact (isZonePrefix : params.IsZonePrefix network)
    (small : params.allocPrefixLen - params.seedPrefix.length ≤ 30) :
    prefixCount beyond params network = params.total network ∧
      Word32.networkToPrefixSpace beyond params network = params.total network ∧
      prefixSpace beyond params network = params.total network := by
  have longer := isZonePrefix.seed_le
  have shorter := isZonePrefix.le_alloc
  have exact := shiftOne_exact beyond (show params.allocPrefixLen - network.length ≤ 30 by omega)
  rw [cast_sub shorter] at exact
  have unwrapped : ((params.allocPrefixLen : Int) - network.length) % 2 ^ 32 =
      params.allocPrefixLen - network.length :=
    Int.emod_eq_of_lt (by omega) (by omega)
  refine ⟨exact.1, ?_, exact.2.trans ?_⟩
  · rw [Word32.networkToPrefixSpace, unwrapped]
    exact exact.1
  · norm_cast

theorem small_of_exact
    (exact : prefixSpace beyond params params.seedPrefix = params.total params.seedPrefix) :
    params.allocPrefixLen - params.seedPrefix.length ≤ 30 := by
  have bound : prefixSpace beyond params params.seedPrefix < 2 ^ 31 := BitVec.toInt_lt
  rw [exact] at bound
  have powers : 2 ^ (params.allocPrefixLen - params.seedPrefix.length) < 2 ^ 31 := by
    exact_mod_cast bound
  have := (Nat.pow_lt_pow_iff_right (by decide)).mp powers
  omega

end Counts

/-! ### The next prefix -/

namespace Word32

section Next

variable (net : NetworkUtils) (beyond : Int → BitVec 32) (params : AcceptedParams)

/-- `CentralizedPrefixAllocator::getNextUnallocatedPrefix`, with the count it computes. -/
def Centralized.getNextUnallocatedPrefix : CpaM CIDRNetwork := do
  let s ← get
  match ← firstUnallocated net s.allocator.prefix2NodeName params.seedPrefix
      params.allocPrefixLen (prefixCount beyond params params.seedPrefix) 0 with
  | some newPrefix => return newPrefix
  | none => throwInvalidArgument "No available prefixes"

/-- The loop of `getNextUnallocatedPrefix` over the sorted zone prefixes. -/
def scanZonePrefixes (allocated : CIDRNetwork → Option String) :
    List CIDRNetwork → DpaM (Option CIDRNetwork)
  | [] => return none
  | zonePrefix :: rest => do
    match ← firstUnallocated net allocated zonePrefix params.allocPrefixLen
        (prefixCount beyond params zonePrefix) 0 with
    | some newPrefix => return some newPrefix
    | none => scanZonePrefixes allocated rest

/-- `DeterministicPrefixAllocator::getNextUnallocatedPrefix`, with the counts it computes. -/
def Deterministic.getNextUnallocatedPrefix (zone : PrefixZone) : DpaM (Option CIDRNetwork) :=
  scanZonePrefixes net beyond params zone.allocatedNodePrefixes
    (Ascending.listing zone.allocatedZonePrefixes)

end Next

end Word32

/-- The parameters under which the counts are numbers without a bound. -/
def AcceptedParams.exact (params : AcceptedParams)
    (small : params.allocPrefixLen - params.seedPrefix.length ≤ 30)
    (fits : params.allocPrefixLen ≤ params.seedPrefix.family.bitCount) : PrefixAllocParams where
  seedPrefix := params.seedPrefix
  allocPrefixLen := params.allocPrefixLen
  seed_lt := params.seed_lt
  le_bitCount := fits
  small := lt_succ_of_le small

variable {zone : PrefixZone}

section Exact

variable (net : NetworkUtils) {beyond : Int → BitVec 32} {params : AcceptedParams}
  (small : params.allocPrefixLen - params.seedPrefix.length ≤ 30)
  (fits : params.allocPrefixLen ≤ params.seedPrefix.family.bitCount)

theorem prefixCount_eq (isZonePrefix : params.IsZonePrefix network)
    (small : params.allocPrefixLen - params.seedPrefix.length ≤ 30) :
    prefixCount beyond params network = networkToPrefixSpace network params.allocPrefixLen := by
  rw [(counts_exact isZonePrefix small).1, networkToPrefixSpace_eq, AcceptedParams.total]

theorem central_next_eq : Word32.Centralized.getNextUnallocatedPrefix net beyond params =
      Centralized.getNextUnallocatedPrefix net (params.exact small fits) := by
  rw [Word32.Centralized.getNextUnallocatedPrefix, prefixCount_eq params.isZonePrefix_seed small]
  rfl

/-- With exact counts the deterministic allocator is the one with unbounded numbers. -/
theorem zone_next_eq
    (zonePrefixes : ∀ zonePrefix ∈ zone.allocatedZonePrefixes, params.IsZonePrefix zonePrefix) :
    Word32.Deterministic.getNextUnallocatedPrefix net beyond params zone =
      getNextUnallocatedPrefix net (params.exact small fits) zone := by
  have listed : ∀ zonePrefix ∈ Ascending.listing zone.allocatedZonePrefixes,
      params.IsZonePrefix zonePrefix :=
    fun zonePrefix member => zonePrefixes zonePrefix (Ascending.mem_listing.mp member)
  rw [Word32.Deterministic.getNextUnallocatedPrefix, getNextUnallocatedPrefix]
  generalize Ascending.listing zone.allocatedZonePrefixes = sortedZonePrefixes at listed ⊢
  induction sortedZonePrefixes with
  | nil => rfl
  | cons zonePrefix _ ih =>
    have later := ih fun other member => listed other (by simp [member])
    rw [Word32.scanZonePrefixes, later, prefixCount_eq (listed zonePrefix (by simp)) small]
    rfl

end Exact

/-! ### Free prefixes -/

def allocatedPrefixes (allocated : CIDRNetwork → Option String) (network : CIDRNetwork)
    (len : Nat) : Set CIDRNetwork :=
  {taken | taken.length = len ∧ taken.InSubnet network ∧ allocated taken ≠ none}

theorem exists_free_subnet {allocated : CIDRNetwork → Option String}
    {len : Nat} (longer : network.length ≤ len) (fits : len ≤ network.family.bitCount)
    (few : (allocatedPrefixes allocated network len).encard < (2 ^ (len - network.length) : Nat)) :
    ∃ i < 2 ^ (len - network.length), allocated (network.subnetAt len i) = none := by
  by_contra noFree
  -- otherwise all the subnets are allocated, and they are pairwise different
  have has : ∀ i ∈ range (2 ^ (len - network.length)), network.HasSubnet len i :=
    fun i within => ⟨longer, fits, mem_range.mp within⟩
  have injective : Set.InjOn (network.subnetAt len)
      (range (2 ^ (len - network.length)) : Set Nat) := by
    intro i inI j inJ same
    rw [Cidr.Network.subnetAt_eq (has i inI), Cidr.Network.subnetAt_eq (has j inJ)] at same
    exact Cidr.Network.subnet_injective (has i inI) (has j inJ) same
  have allTaken : Set.image (network.subnetAt len) (range (2 ^ (len - network.length)) : Set Nat) ⊆
        allocatedPrefixes allocated network len := by
    rintro _ ⟨i, inI, rfl⟩
    have taken : allocated (network.subnetAt len i) ≠ none :=
      fun free => noFree ⟨i, mem_range.mp inI, free⟩
    refine ⟨?_, ?_, taken⟩
    · rw [Cidr.Network.subnetAt_eq (has i inI), Cidr.Network.subnet_length]
    · rw [Cidr.Network.subnetAt_eq (has i inI)]
      exact Cidr.Network.subnet_inSubnet (has i inI)
  have many := Set.encard_le_encard allTaken
  rw [injective.encard_image, Set.encard_coe_eq_coe_finsetCard, card_range] at many
  exact absurd few (not_lt.mpr many)

/-- A prefix of the length to allocate in a network that nothing is allocated to. -/
structure AcceptedParams.IsFree (params : AcceptedParams) (allocated : CIDRNetwork → Option String)
    (network free : CIDRNetwork) : Prop where
  length : free.length = params.allocPrefixLen
  inSubnet : free.InSubnet network
  unallocated : allocated free = none

/-- The zone prefixes of a zone lie in the seed prefix and share no address. -/
structure AcceptedParams.ZoneInside (params : AcceptedParams) (zone : PrefixZone) : Prop where
  isZonePrefix : ∀ network ∈ zone.allocatedZonePrefixes, params.IsZonePrefix network
  disjoint : ∀ one ∈ zone.allocatedZonePrefixes, ∀ two ∈ zone.allocatedZonePrefixes, ∀ x,
    one.Mem x → two.Mem x → one = two

def allocatedInZone (zone : PrefixZone) (len : Nat) : Set CIDRNetwork :=
  ⋃ network ∈ zone.allocatedZonePrefixes, allocatedPrefixes zone.allocatedNodePrefixes network len

/-- The numbers of prefixes are exact for the seed prefix and the zone prefixes in it, and a free
prefix is found as long as there is one by these numbers. -/
structure CountsExact (net : NetworkUtils) (beyond : Int → BitVec 32) (params : AcceptedParams) :
    Prop where
  count : ∀ network, params.IsZonePrefix network →
    prefixCount beyond params network = params.total network ∧
      Word32.networkToPrefixSpace beyond params network = params.total network ∧
      prefixSpace beyond params network = params.total network
  nextOfSeed : ∀ s : AllocState Centralized,
    (allocatedPrefixes s.allocator.prefix2NodeName params.seedPrefix
      params.allocPrefixLen).encard < params.total params.seedPrefix →
    ∃ free, (Word32.Centralized.getNextUnallocatedPrefix net beyond params).run s = .ok free s ∧
      params.IsFree s.allocator.prefix2NodeName params.seedPrefix free
  nextOfZone : ∀ (s : AllocState Deterministic) (zone : PrefixZone), params.ZoneInside zone →
    (allocatedInZone zone params.allocPrefixLen).encard <
      ∑ network ∈ zone.allocatedZonePrefixes, params.total network →
    ∃ free, (Word32.Deterministic.getNextUnallocatedPrefix net beyond params zone).run s =
        .ok (some free) s ∧
      ∃ network ∈ zone.allocatedZonePrefixes, params.IsFree zone.allocatedNodePrefixes network free

variable {params : AcceptedParams}

theorem exists_few_of_zone (inside : params.ZoneInside zone)
    (few : (allocatedInZone zone params.allocPrefixLen).encard <
      ∑ network ∈ zone.allocatedZonePrefixes, params.total network) :
    ∃ network ∈ zone.allocatedZonePrefixes,
      (allocatedPrefixes zone.allocatedNodePrefixes network params.allocPrefixLen).encard <
        params.total network := by
  by_contra allFull
  have full : ∀ network ∈ zone.allocatedZonePrefixes, params.total network ≤
      (allocatedPrefixes zone.allocatedNodePrefixes network params.allocPrefixLen).encard :=
    fun network isPrefix => not_lt.mp fun few => allFull ⟨network, isPrefix, few⟩
  -- no prefix is allocated in two zone prefixes, so that the numbers add up
  have apart : (zone.allocatedZonePrefixes : Set CIDRNetwork).PairwiseDisjoint fun network =>
      allocatedPrefixes zone.allocatedNodePrefixes network params.allocPrefixLen := by
    intro one isOne two isTwo different
    refine Set.disjoint_left.mpr fun _ inOne inTwo => different ?_
    exact inside.disjoint one isOne two isTwo _ inOne.2.1.2 inTwo.2.1.2
  have counted := (finite_toSet zone.allocatedZonePrefixes).encard_biUnion apart
  rw [finsum_mem_coe_finset] at counted
  have many : ((∑ network ∈ zone.allocatedZonePrefixes, params.total network : Nat) : ℕ∞) ≤
      (allocatedInZone zone params.allocPrefixLen).encard := by
    calc ((∑ network ∈ zone.allocatedZonePrefixes, params.total network : Nat) : ℕ∞)
        = ∑ network ∈ zone.allocatedZonePrefixes, (params.total network : ℕ∞) := by
          exact cast_sum _ _
      _ ≤ ∑ network ∈ zone.allocatedZonePrefixes,
            (allocatedPrefixes zone.allocatedNodePrefixes network params.allocPrefixLen).encard :=
          sum_le_sum full
      _ = (allocatedInZone zone params.allocPrefixLen).encard := counted.symm
  exact absurd few (not_lt.mpr many)

section Exact

variable (net : NetworkUtils) {beyond : Int → BitVec 32}
  (small : params.allocPrefixLen - params.seedPrefix.length ≤ 30)
  (fits : params.allocPrefixLen ≤ params.seedPrefix.family.bitCount)

include small fits

theorem exists_next_of_seed (s : AllocState Centralized)
    (few : (allocatedPrefixes s.allocator.prefix2NodeName params.seedPrefix
      params.allocPrefixLen).encard < params.total params.seedPrefix) :
    ∃ free, (Word32.Centralized.getNextUnallocatedPrefix net beyond params).run s = .ok free s ∧
      params.IsFree s.allocator.prefix2NodeName params.seedPrefix free := by
  obtain ⟨i, within, free⟩ := exists_free_subnet params.seed_lt.le fits few
  have listed : params.seedPrefix.subnetAt params.allocPrefixLen i ∈
      seedPrefixes (params.exact small fits) := by
    refine List.mem_map.mpr ⟨i, List.mem_range.mpr ?_, rfl⟩
    rw [networkToPrefixSpace_eq]
    exact within
  rw [central_next_eq net small fits, run_nextPrefix]
  cases found : nextPrefix (params.exact small fits) s.allocator.prefix2NodeName with
  | none => exact absurd free (by simpa using List.find?_eq_none.mp found _ listed)
  | some newPrefix =>
    obtain ⟨inSeeds, unallocated⟩ := nextPrefix_eq_some _ found
    obtain ⟨inSubnet, length⟩ := mem_seedPrefixes _ inSeeds
    exact ⟨newPrefix, rfl, length, inSubnet, unallocated⟩

theorem exists_next_of_zone (s : AllocState Deterministic)
    (zonePrefixes : ∀ network ∈ zone.allocatedZonePrefixes, params.IsZonePrefix network)
    (few : ∃ network ∈ zone.allocatedZonePrefixes,
      (allocatedPrefixes zone.allocatedNodePrefixes network params.allocPrefixLen).encard <
        params.total network) :
    ∃ free, (Word32.Deterministic.getNextUnallocatedPrefix net beyond params zone).run s =
        .ok (some free) s ∧
      ∃ network ∈ zone.allocatedZonePrefixes,
        params.IsFree zone.allocatedNodePrefixes network free := by
  have inSeed : ∀ network ∈ zone.allocatedZonePrefixes,
      network.family = params.seedPrefix.family ∧ network.length ≤ params.allocPrefixLen :=
    fun network member =>
      ⟨(zonePrefixes network member).inSubnet.1, (zonePrefixes network member).le_alloc⟩
  obtain ⟨network, isPrefix, few⟩ := few
  obtain ⟨family, shorter⟩ := inSeed network isPrefix
  obtain ⟨i, within, free⟩ := exists_free_subnet shorter (by rw [family]; exact fits) few
  have listed : network.subnetAt params.allocPrefixLen i ∈
      candidates (params.exact small fits) zone :=
    mem_candidates.mpr ⟨network, isPrefix, i, within, rfl⟩
  rw [zone_next_eq net small fits zonePrefixes, run_getNextUnallocatedPrefix net inSeed]
  cases found : (candidates (params.exact small fits) zone).find?
      (zone.allocatedNodePrefixes · = none) with
  | none => exact absurd free (by simpa using List.find?_eq_none.mp found _ listed)
  | some =>
    obtain ⟨outer, isOuter, j, within, rfl⟩ :=
      mem_candidates.mp (List.mem_of_find?_eq_some found)
    obtain ⟨family, shorter⟩ := inSeed outer isOuter
    have has : outer.HasSubnet params.allocPrefixLen j :=
      ⟨shorter, by rw [family]; exact fits, within⟩
    have same : outer.subnetAt (params.exact small fits).allocPrefixLen j =
        outer.subnet params.allocPrefixLen j has := Cidr.Network.subnetAt_eq has
    refine ⟨_, rfl, outer, isOuter, ?_, ?_, by simpa using List.find?_some found⟩
    · rw [same, Cidr.Network.subnet_length]
    · rw [same]
      exact Cidr.Network.subnet_inSubnet has

end Exact

/-- An allocator for a network without nodes. -/
def nothingAllocated : AllocState Centralized where
  topologyW := .ofTopology {} false
  config := fun _ => none
  allocator := ⟨fun _ => none⟩

theorem CountsExact.fits {net : NetworkUtils} {beyond : Int → BitVec 32}
    (exact : CountsExact net beyond params) :
    params.allocPrefixLen ≤ params.seedPrefix.family.bitCount := by
  let s := nothingAllocated
  have nothing : allocatedPrefixes s.allocator.prefix2NodeName params.seedPrefix
      params.allocPrefixLen = ∅ := by
    ext taken
    simp [allocatedPrefixes, s, nothingAllocated]
  have few : (allocatedPrefixes s.allocator.prefix2NodeName params.seedPrefix
      params.allocPrefixLen).encard < params.total params.seedPrefix := by
    rw [nothing, Set.encard_empty]
    exact_mod_cast Nat.two_pow_pos _
  obtain ⟨free, _, isFree⟩ := exact.nextOfSeed s few
  rw [← isFree.length, ← isFree.inSubnet.1]
  exact free.length_le

/-- The counts are exact if and only if the lengths differ by at most 30 and the length to allocate
fits the family of the seed prefix. -/
theorem prefix_counts_exact_iff (net : NetworkUtils) (beyond : Int → BitVec 32)
    (given : GivenAllocParams) (valid : validatePrefixAllocParams net given = .ok ()) :
    ∃ params, AcceptedAs net given params ∧ (CountsExact net beyond params ↔
        params.allocPrefixLen - params.seedPrefix.length ≤ 30 ∧
          params.allocPrefixLen ≤ params.seedPrefix.family.bitCount) := by
  obtain ⟨params, accepted⟩ := exists_accepted valid
  refine ⟨params, accepted, ?_, ?_⟩
  · intro exact
    exact ⟨small_of_exact (exact.count _ params.isZonePrefix_seed).2.2, exact.fits⟩
  · intro ⟨small, fits⟩
    exact {
      count := fun _ isZonePrefix => counts_exact isZonePrefix small
      nextOfSeed := exists_next_of_seed net small fits
      nextOfZone := fun s _ inside few =>
        exists_next_of_zone net small fits s inside.isZonePrefix (exists_few_of_zone inside few) }

def maskedShift (amount : Int) : BitVec 32 :=
  1#32 <<< (amount % 32).toNat

/-- A seed prefix of 32 bits, `2001:db8::/32`. -/
def documentationSeed : CIDRNetwork where
  family := .V6
  address := 0x20010db8 * 2 ^ 96
  length := 32
  length_le := by decide
  masked := dvd_mul_left _ _
  bounded := by decide

/-- Prefixes of 56 bits are counted right. -/
theorem prefix_counts_exact_of_56 :
    ∃ params, AcceptedAs .binary ⟨NetworkUtils.binary.networkToString documentationSeed, 56⟩ params ∧
      CountsExact .binary maskedShift params := by
  obtain ⟨params, accepted, exact⟩ := prefix_counts_exact_iff .binary maskedShift
    ⟨NetworkUtils.binary.networkToString documentationSeed, 56⟩
    (by rw [validatePrefixAllocParams]; rfl)
  have seed : params.seedPrefix = documentationSeed := by
    have read := accepted.seedPrefix
    exact (Except.ok.inj read).symm
  have length : params.allocPrefixLen = 56 :=
    Int.ofNat.inj accepted.allocPrefixLen.symm
  refine ⟨params, accepted, exact.mpr ?_⟩
  rw [seed, length]
  decide

/-- Of the prefixes of 64 bits, the usual length for a node, only one is counted. -/
theorem prefix_counts_wrong_of_64 :
    ∃ params, AcceptedAs .binary ⟨NetworkUtils.binary.networkToString documentationSeed, 64⟩ params ∧
      prefixCount maskedShift params params.seedPrefix = 1 ∧
      params.total params.seedPrefix = 2 ^ 32 ∧ ¬ CountsExact .binary maskedShift params := by
  refine ⟨⟨documentationSeed, 64, by decide, by decide⟩, ⟨?_, ?_, rfl⟩, by decide, by decide, ?_⟩
  · rfl
  · exact NetworkUtils.binary.createNetwork_networkToString documentationSeed
  · intro exact
    exact absurd (small_of_exact (exact.count _ (AcceptedParams.isZonePrefix_seed _)).2.2)
      (by decide)

end Words

end Terragraph
