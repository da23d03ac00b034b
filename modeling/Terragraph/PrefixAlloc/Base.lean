/-
Module: Terragraph.PrefixAlloc.Base
Purpose: The class `PrefixZone`, and what the prefix allocators share.
Trusted boundary: human-reviewed embedding of `PrefixZone.cpp`; `NetworkUtils` states the documented
  behaviour of library functions
Main exports: PrefixZone, NetworkUtils, firstUnallocated
-/
import Terragraph.Lib.Cidr
import Terragraph.Topology.Sites

namespace Terragraph

open Finset Function

/-- `folly::CIDRNetwork`, as `createNetwork` returns it: the host bits are masked. -/
abbrev CIDRNetwork := Cidr.Network

/-- `class PrefixZone`. -/
structure PrefixZone where
  allocationSizeOverride : Int := -1
  nodes : Finset String := ∅
  allocatedPrefixSpaces : Finset Nat := ∅
  allocatedZonePrefixes : Finset CIDRNetwork := ∅
  allocatedNodePrefixes : CIDRNetwork → Option String := fun _ => none

namespace PrefixZone

/-! ### Getters -/

/-- `PrefixZone::size`. -/
def size (zone : PrefixZone) : Nat := zone.nodes.card

/-- `PrefixZone::maxSize`. -/
def maxSize (zone : PrefixZone) : Nat := ∑ space ∈ zone.allocatedPrefixSpaces, space

/-- `PrefixZone::getAllocationSize`. -/
def getAllocationSize (zone : PrefixZone) : Int :=
  if zone.allocationSizeOverride > -1 then zone.allocationSizeOverride else zone.size

/-- `PrefixZone::getRemaining`. -/
def getRemaining (zone : PrefixZone) : Int := zone.getAllocationSize - zone.maxSize

/-! ### Setters -/

/-- `PrefixZone::setAllocationSizeOverride`. -/
def setAllocationSizeOverride (zone : PrefixZone) (n : Int) : PrefixZone :=
  { zone with allocationSizeOverride := n }

/-- `PrefixZone::setAllocatedPrefixSpaces`. -/
def setAllocatedPrefixSpaces (zone : PrefixZone) (prefixSpaces : Finset Nat) : PrefixZone :=
  { zone with allocatedPrefixSpaces := prefixSpaces }

/-- `PrefixZone::addNode`. -/
def addNode (zone : PrefixZone) (nodeName : String) : PrefixZone :=
  { zone with nodes := insert nodeName zone.nodes }

/-- The loop of `addToPrefixSpace`: every round but the last erases an element of the set. -/
def carry : Nat → Nat → Finset Nat → Finset Nat
  | 0, n, spaces => insert n spaces
  | rounds + 1, n, spaces =>
    if n ∈ spaces then carry rounds (n * 2) (spaces.erase n) else insert n spaces

/-- `PrefixZone::addToPrefixSpace`. -/
def addToPrefixSpace (zone : PrefixZone) (n : Nat) : PrefixZone :=
  { zone with
    allocatedPrefixSpaces := carry zone.allocatedPrefixSpaces.card n zone.allocatedPrefixSpaces }

/-- `PrefixZone::addZonePrefix`. -/
def addZonePrefix (zone : PrefixZone) (zonePrefix : CIDRNetwork) : PrefixZone :=
  { zone with allocatedZonePrefixes := insert zonePrefix zone.allocatedZonePrefixes }

/-- `PrefixZone::assignNodePrefix`. -/
def assignNodePrefix (zone : PrefixZone) (nodeName : String) (nodePrefix : CIDRNetwork) :
    PrefixZone :=
  { zone with
    allocatedNodePrefixes :=
      update zone.allocatedNodePrefixes nodePrefix (some nodeName) }

/-- `PrefixZone::delNode`.  Its result is only logged. -/
def delNode (zone : PrefixZone) (nodeName : String) (nodePrefix : CIDRNetwork) : PrefixZone :=
  { zone with
    nodes := zone.nodes.erase nodeName
    allocatedNodePrefixes := update zone.allocatedNodePrefixes nodePrefix none }

/-- `PrefixZone::editNodeName`. -/
def editNodeName (zone : PrefixZone) (oldNodeName : String) (nodePrefix : CIDRNetwork)
    (newNodeName : String) : PrefixZone :=
  if oldNodeName ∉ zone.nodes then zone
  else
    { zone with
      nodes := insert newNodeName (zone.nodes.erase oldNodeName)
      allocatedNodePrefixes :=
        if zone.allocatedNodePrefixes nodePrefix = none then zone.allocatedNodePrefixes
        else update zone.allocatedNodePrefixes nodePrefix (some newNodeName) }

/-- `PrefixZone::clearPrefixSpaces`. -/
def clearPrefixSpaces (zone : PrefixZone) : PrefixZone :=
  { zone with allocatedPrefixSpaces := ∅ }

/-! ### Prefix spaces as a binary number -/

variable {spaces : Finset Nat}

theorem sum_carry {rounds n : Nat} (enough : spaces.card ≤ rounds) :
    ∑ space ∈ carry rounds n spaces, space = n + ∑ space ∈ spaces, space := by
  induction rounds generalizing n spaces with
  | zero =>
    have empty : spaces = ∅ := card_eq_zero.mp (Nat.le_zero.mp enough)
    subst empty
    simp [carry]
  | succ rounds ih =>
    unfold carry
    split
    · next taken =>
      have fewer : (spaces.erase n).card ≤ rounds := by
        rw [card_erase_of_mem taken]
        omega
      rw [ih fewer, ← add_sum_erase spaces _ taken]
      omega
    · next free => rw [sum_insert free]

theorem maxSize_addToPrefixSpace (zone : PrefixZone) (n : Nat) :
    (zone.addToPrefixSpace n).maxSize = n + zone.maxSize :=
  sum_carry le_rfl

theorem getRemaining_addToPrefixSpace (zone : PrefixZone) (n : Nat) :
    (zone.addToPrefixSpace n).getRemaining = zone.getRemaining - n := by
  have added := maxSize_addToPrefixSpace zone n
  have same : (zone.addToPrefixSpace n).getAllocationSize = zone.getAllocationSize := rfl
  unfold getRemaining
  omega

def Binary (zone : PrefixZone) : Prop :=
  ∀ space ∈ zone.allocatedPrefixSpaces, ∃ exponent, space = 2 ^ exponent

theorem binary_carry {rounds n : Nat} (power : ∃ exponent, n = 2 ^ exponent)
    (powers : ∀ space ∈ spaces, ∃ exponent, space = 2 ^ exponent) :
    ∀ space ∈ carry rounds n spaces, ∃ exponent, space = 2 ^ exponent := by
  induction rounds generalizing n spaces with
  | zero =>
    intro space member
    rcases mem_insert.mp member with new | old
    · rw [new]
      exact power
    · exact powers space old
  | succ _ ih =>
    unfold carry
    split
    · apply ih
      · obtain ⟨exponent, rfl⟩ := power
        exact ⟨exponent + 1, (Nat.pow_succ ..).symm⟩
      · exact fun space member => powers space (mem_of_mem_erase member)
    · intro space member
      rcases mem_insert.mp member with new | old
      · rw [new]
        exact power
      · exact powers space old

theorem binary_addToPrefixSpace {zone : PrefixZone} (binary : zone.Binary) {n : Nat}
    (power : ∃ exponent, n = 2 ^ exponent) : (zone.addToPrefixSpace n).Binary :=
  binary_carry power binary

end PrefixZone

open Guarded List

/-! ### Networks -/

/-- `folly::IPAddress::createNetwork` (which throws `IPAddressFormatException` for a text that
denotes no network), `folly::IPAddress::networkToString`, and `openr::getNthPrefix`, the `n`-th
subnet of a length. -/
structure NetworkUtils where
  createNetwork : String → Except String CIDRNetwork
  networkToString : CIDRNetwork → String
  getNthPrefix : CIDRNetwork → Nat → Nat → Except ControllerError CIDRNetwork
  createNetwork_networkToString : ∀ network, createNetwork (networkToString network) = .ok network
  createNetwork_empty : ∀ network, createNetwork "" ≠ .ok network
  getNthPrefix_eq : ∀ network len n (has : network.HasSubnet len n),
    getNthPrefix network len n = .ok (network.subnet len n has)

variable (net : NetworkUtils)

namespace NetworkUtils

theorem networkToString_injective :
    Function.Injective net.networkToString := by
  intro first second same
  have parsed := net.createNetwork_networkToString first
  rw [same, net.createNetwork_networkToString second] at parsed
  exact (Except.ok.inj parsed).symm

theorem networkToString_ne_empty (network : CIDRNetwork) :
    net.networkToString network ≠ "" := by
  intro empty
  have parsed := net.createNetwork_networkToString network
  rw [empty] at parsed
  exact net.createNetwork_empty network parsed

/-- Networks written in binary notation. -/
def binary : NetworkUtils where
  createNetwork text := match Cidr.Network.ofBits text with
    | some network => .ok network
    | none => .error text
  networkToString := Cidr.Network.toBits
  getNthPrefix network len n :=
    if has : network.HasSubnet len n then .ok (network.subnet len n has)
    else .error (.invalidArgument "Prefix length is bigger than allocated prefix length")
  createNetwork_networkToString network := by rw [Cidr.Network.ofBits_toBits]
  createNetwork_empty network := by
    have nothing : Cidr.Network.ofBits "" = none := by decide
    rw [nothing]
    simp
  getNthPrefix_eq network len n has := dif_pos has

end NetworkUtils

/-- `prefixAllocParams_`, the validated seed prefix and length, for a 32-bit number of prefixes. -/
structure PrefixAllocParams where
  seedPrefix : CIDRNetwork
  allocPrefixLen : Nat
  seed_lt : seedPrefix.length < allocPrefixLen
  le_bitCount : allocPrefixLen ≤ seedPrefix.family.bitCount
  small : allocPrefixLen - seedPrefix.length < 31

/-- `networkToPrefixSpace`: the number of prefixes to allocate in a network. -/
def networkToPrefixSpace (network : CIDRNetwork) (allocPrefixLen : Nat) : Nat :=
  1 <<< (allocPrefixLen - network.length)

theorem networkToPrefixSpace_eq (network : CIDRNetwork) (allocPrefixLen : Nat) :
    networkToPrefixSpace network allocPrefixLen = 2 ^ (allocPrefixLen - network.length) := by
  rw [networkToPrefixSpace, Nat.one_shiftLeft]

/-! ### The automatic node config -/

/-- The object `bgpParams` of a node, as far as the allocators write it. -/
structure BgpParams where
  specificNetworkPrefixes : Option String := none
deriving DecidableEq

/-- The automatic overrides of one node: `bgpParams` and `linkParamsOverride` (by the MAC of the
responder), and every other entry as its text. -/
structure AutoNodeOverrides where
  bgpParams : Option BgpParams := none
  linkParamsOverride : Option (String → Option String) := none
  others : String → Option String := fun _ => none

/-- `autoNodesOverrides_`. -/
abbrev AutoNodesOverrides := String → Option AutoNodeOverrides

/-- `ConfigHelper::getAutoNodeSpecificNetworkPrefixes`. -/
def getAutoNodeSpecificNetworkPrefixes (config : AutoNodesOverrides) (nodeName : String) :
    Option String := do
  let overrides ← config nodeName
  let bgpParams ← overrides.bgpParams
  bgpParams.specificNetworkPrefixes

/-- `ConfigHelper::setAutoNodeSpecificNetworkPrefixes`, for a file that can be written: a new value
is written, with the missing objects on its path. -/
def setAutoNodeSpecificNetworkPrefixes (nodeName : String)
    (specificNetworkPrefixes : Option String) (config : AutoNodesOverrides) :
    AutoNodesOverrides :=
  if specificNetworkPrefixes = getAutoNodeSpecificNetworkPrefixes config nodeName then config
  else
    let overrides := (config nodeName).getD {}
    let bgpParams := overrides.bgpParams.getD {}
    Function.update config nodeName
      (some { overrides with bgpParams := some { bgpParams with specificNetworkPrefixes } })

/-! ### Programs of an allocator -/

/-- What ends a program of an allocator: an exception of the controller or of folly, or an endless
recursion. -/
inductive AllocFailure where
  | thrown (error : ControllerError)
  | ipAddressFormat (what : String)
  | neverReturns
deriving DecidableEq

/-- What the member functions can change: the topology, the automatic config and the members `α`. -/
structure AllocState (α : Type) where
  topologyW : TopologyWrapper
  config : AutoNodesOverrides
  allocator : α

abbrev AllocM (α : Type) := EStateM AllocFailure (AllocState α)

section Programs

variable {α β : Type}

/-- `throw std::invalid_argument(what)`. -/
def throwInvalidArgument (what : String) : AllocM α β :=
  throw (.thrown (.invalidArgument what))

/-- Call a member function of the topology wrapper. -/
def onTopology (program : TopologyM β) : AllocM α β := fun s =>
  match program.run s.topologyW with
  | .ok result w => .ok result { s with topologyW := w }
  | .error e w => .error (.thrown e) { s with topologyW := w }

def modifyConfig (f : AutoNodesOverrides → AutoNodesOverrides) : AllocM α Unit :=
  modify fun s => { s with config := f s.config }

def modifyAllocator (f : α → α) : AllocM α Unit :=
  modify fun s => { s with allocator := f s.allocator }

/-- `folly::IPAddress::createNetwork`. -/
def createNetwork (net : NetworkUtils) (text : String) : AllocM α CIDRNetwork :=
  match net.createNetwork text with
  | .ok network => pure network
  | .error what => throw (.ipAddressFormat what)

/-- `openr::getNthPrefix`. -/
def getNthPrefix (net : NetworkUtils) (network : CIDRNetwork) (len n : Nat) :
    AllocM α CIDRNetwork :=
  match net.getNthPrefix network len n with
  | .ok subnet => pure subnet
  | .error e => throw (.thrown e)

/-- The linear pass over the next `count` subnets for the first one that is not allocated. -/
def firstUnallocated (net : NetworkUtils) (allocated : CIDRNetwork → Option String)
    (network : CIDRNetwork) (len : Nat) : Nat → Nat → AllocM α (Option CIDRNetwork)
  | 0, _ => return none
  | count + 1, newVal => do
    let newPrefix ← getNthPrefix net network len newVal
    if allocated newPrefix = none then return some newPrefix
    else firstUnallocated net allocated network len count (newVal + 1)

end Programs

/-- The member functions of `BasePrefixAllocator` that the controller calls. -/
structure PrefixAllocator (α : Type) where
  addNode : Node → AllocM α Unit
  delNode : Node → AllocM α Unit
  editNode : Node → Node → AllocM α Unit
  addLink : Link → AllocM α Unit
  editSite : String → Site → AllocM α Unit
  allocate : AllocM α Unit

/-! ### Inversion -/

section Inversion

variable {α β : Type} {s s' : AllocState α} {program : TopologyM β}

theorem onTopology_eq_ok {result : β} :
    (onTopology program : AllocM α β).run s = .ok result s' ↔
      ∃ w, program.run s.topologyW = .ok result w ∧ s' = { s with topologyW := w } := by
  unfold onTopology EStateM.run
  cases outcome : program.run s.topologyW with
  | ok a w =>
    have outcome' : program s.topologyW = .ok a w := outcome
    simp [outcome', eq_comm]
  | error e w =>
    have outcome' : program s.topologyW = .error e w := outcome
    simp [outcome']

theorem onTopology_eq_error {failure : AllocFailure} :
    (onTopology program : AllocM α β).run s = .error failure s' ↔
      ∃ e w, program.run s.topologyW = .error e w ∧ failure = .thrown e ∧
        s' = { s with topologyW := w } := by
  unfold onTopology EStateM.run
  cases outcome : program.run s.topologyW with
  | ok a w =>
    have outcome' : program s.topologyW = .ok a w := outcome
    simp [outcome']
  | error e w =>
    have outcome' : program s.topologyW = .error e w := outcome
    simp [outcome', eq_comm]

variable {network : CIDRNetwork}

theorem run_getNthPrefix {len n : Nat} (has : network.HasSubnet len n) :
    (getNthPrefix net network len n : AllocM α CIDRNetwork).run s =
      .ok (network.subnetAt len n) s := by
  rw [getNthPrefix, net.getNthPrefix_eq network len n has, Cidr.Network.subnetAt_eq has]
  rfl

theorem run_firstUnallocated (allocated : CIDRNetwork → Option String)
    {len : Nat} (longer : network.length ≤ len)
    (fits : len ≤ network.family.bitCount) {count newVal : Nat}
    (within : newVal + count ≤ 2 ^ (len - network.length)) :
    (firstUnallocated net allocated network len count newVal :
        AllocM α (Option CIDRNetwork)).run s =
      .ok (((range' newVal count).map (network.subnetAt len)).find? (allocated · = none)) s := by
  induction count generalizing newVal with
  | zero => rfl
  | succ _ ih =>
    have has : network.HasSubnet len newVal := ⟨longer, fits, by omega⟩
    rw [firstUnallocated, EStateM.run_bind, run_getNthPrefix net has]
    simp only
    rw [range'_succ]
    split
    · next free => simp [free, EStateM.run, pure, EStateM.pure]
    · next taken => simpa [taken] using ih (by omega)

end Inversion

end Terragraph
