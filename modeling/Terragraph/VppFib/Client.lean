/-
Module: Terragraph.VppFib.Client
Purpose: The FIB agent's client of VPP, and what its calls do to VPP's paths and to the caches.
Trusted boundary: VPP's tables, which do not change on their own; the order of next hops
Main exports: NextHop, Vpp.path, Interfaced, syncRoutes_ok
-/
import Terragraph.Lib.Guarded
import Terragraph.Lib.Reconcile

namespace Terragraph.VppFib

open AssocList Function

/-! ### Routes -/

abbrev Address : Type := List UInt8

/-- `IPV6_ADDR_SZ` -/
def ipv6AddrSz : Nat := 16

structure IpPrefix where
  prefixAddress : Address
  prefixLength : UInt8
deriving DecidableEq

def IpPrefix.isIpv6 (dest : IpPrefix) : Bool := dest.prefixAddress.length = ipv6AddrSz

/-- A `NextHopThrift`; the attributes `ρ` besides address and weight only take part in comparisons.
-/
structure NextHop (ρ : Type) where
  addr : Address
  ifName : Option String
  weight : Int
  attributes : ρ
deriving DecidableEq

structure UnicastRoute (ρ : Type) where
  dest : IpPrefix
  nextHops : List (NextHop ρ)
deriving DecidableEq

/-! ### VPP -/

/-- `~0` where VPP expects an interface: the path is not bound to one. -/
def noInterface : UInt32 := 0xFFFFFFFF

/-- What tells the paths of one prefix and preference apart. -/
structure PathKey where
  nh : Address
  swIfIndex : UInt32
deriving DecidableEq

structure Fib where
  paths : List ((IpPrefix × UInt8 × PathKey) × UInt8)
  nodup : (keys paths).Nodup

namespace Fib

def empty : Fib := ⟨[], List.nodup_nil⟩

/-- `ip_route_add_del` with `is_multipath`: the other paths of the prefix stay. -/
def add (fib : Fib) (dest : IpPrefix) (preference : UInt8) (key : PathKey) (weight : UInt8) :
    Fib where
  paths := upsert weight (dest, preference, key) (fun _ => weight) fib.paths
  nodup := nodup_keys_upsert fib.nodup

def del (fib : Fib) (dest : IpPrefix) (preference : UInt8) (key : PathKey) : Fib where
  paths := remove (dest, preference, key) fib.paths
  nodup := nodup_keys_remove fib.nodup

def pathsOf (fib : Fib) (preference : UInt8) (dest : IpPrefix) : List (PathKey × UInt8) :=
  fib.paths.filterMap fun path =>
    if path.1.1 = dest ∧ path.1.2.1 = preference then some (path.1.2.2, path.2) else none

/-- `ip_route_dump` of the IPv6 table. -/
def ipv6Prefixes (fib : Fib) : List IpPrefix :=
  ((fib.paths.map fun path => path.1.1).filter IpPrefix.isIpv6).dedup

def table (fib : Fib) (preference : UInt8) (dest : IpPrefix) : Reconcile.Table PathKey UInt8 :=
  fun key => find (dest, preference, key) fib.paths

end Fib

/-- What VPP and the flags answer, and the order of next hops. -/
structure Vpp (ρ : Type) where
  /-- The replies to `sw_interface_dump`. -/
  swInterfaces : List (String × UInt32)
  /-- The replies to `interface_map_dump`: the Linux name of each wired tap. -/
  interfaceMap : List (String × UInt32)
  /-- The BVI index in each reply to `bridge_domain_dump` for the POP bridge domain. -/
  bridgeDomain : List UInt32
  /-- `FLAGS_pop_tap` -/
  popTap : String
  /-- The order of `std::sort` on next hops. -/
  le : NextHop ρ → NextHop ρ → Bool

/-! ### The client -/

structure VppClient (ρ : Type) where
  fib : Fib
  ifNameToIndex : String → Option UInt32
  ifIndexToName : UInt32 → Option String
  unicastRoutes : UInt8 → IpPrefix → Option (List (NextHop ρ))

/-- Calls of the client; what they throw is the text of a `runtime_error`. -/
abbrev ClientM (ρ : Type) : Type → Type := EStateM String (VppClient ρ)

section Client

variable {ρ : Type} (vpp : Vpp ρ)

/-- A `terraX` interface is called `vpp-terraX` in VPP. -/
def linuxName (ifName : String) : String :=
  if ifName.startsWith "vpp-" then (ifName.drop 4).toString else ifName

/-- The names that `updateInterfaces` caches, in its order. -/
def Vpp.interfaces : List (String × UInt32) :=
  (vpp.swInterfaces.map fun interface => (linuxName interface.1, interface.2)) ++ vpp.interfaceMap

variable (client : VppClient ρ)

def cacheInterface (interface : String × UInt32) : VppClient ρ :=
  { client with
    ifNameToIndex := update client.ifNameToIndex interface.1 (some interface.2)
    ifIndexToName := update client.ifIndexToName interface.2 (some interface.1) }

def updateInterfaces : VppClient ρ :=
  vpp.interfaces.foldl cacheInterface client

def VppClient.init (fib : Fib) : VppClient ρ :=
  updateInterfaces vpp ⟨fib, fun _ => none, fun _ => none, fun _ _ => none⟩

def getBVIFromBridgeDomain : UInt32 := vpp.bridgeDomain.head?.getD 0

/-- The interface caches after the queries of `ifaceToVppIndex`. -/
def queryInterface (ifName : String) (client : VppClient ρ) : VppClient ρ :=
  -- The POP tap is not mapped to its tapcli interface but to the BVI of the POP bridge.
  if ifName = vpp.popTap ∧ getBVIFromBridgeDomain vpp ≠ 0 then
    cacheInterface (updateInterfaces vpp client) (ifName, getBVIFromBridgeDomain vpp)
  else updateInterfaces vpp client

def ifaceToVppIndex (ifName : String) : ClientM ρ UInt32 := do
  match (← get).ifNameToIndex ifName with
  | some index => return index
  | none =>
    modify (queryInterface vpp ifName)
    match (← get).ifNameToIndex ifName with
    | some index => return index
    | none => throw ("Could not find vpp interface index for " ++ ifName)

def vppIndexToIface (index : UInt32) : ClientM ρ String := do
  match (← get).ifIndexToName index with
  | some ifName => return ifName
  | none =>
    modify (updateInterfaces vpp)
    match (← get).ifIndexToName index with
    | some ifName => return ifName
    | none =>
      throw ("Could not find vpp interface name for " ++ toString index.toBitVec.toInt)

def getVppLoopbackLinkLocalAddr (tapAddr : Address) : Address := tapAddr.modify 14 (· &&& 0x0F)

/-- The next-hop address of a path: as many bytes as the destination has. -/
def Vpp.nhAddress (dest : IpPrefix) (nextHop : NextHop ρ) : Address :=
  if nextHop.ifName = some vpp.popTap then
    (getVppLoopbackLinkLocalAddr (nextHop.addr.take ipv6AddrSz)).take dest.prefixAddress.length
  else nextHop.addr.take dest.prefixAddress.length

def pathWeight (nextHop : NextHop ρ) : UInt8 := UInt8.ofInt nextHop.weight

def addDelNextHop (preference : UInt8) (dest : IpPrefix) (nextHop : NextHop ρ) (isAdd : Bool) :
    ClientM ρ Unit := do
  let swIfIndex ← match nextHop.ifName with
    | some ifName => ifaceToVppIndex vpp ifName
    | none => pure noInterface
  let key : PathKey := ⟨vpp.nhAddress dest nextHop, swIfIndex⟩
  modify fun client =>
    { client with
      fib :=
        if isAdd then client.fib.add dest preference key (pathWeight nextHop)
        else client.fib.del dest preference key }

def VppClient.cached (preference : UInt8) (dest : IpPrefix) : List (NextHop ρ) :=
  (client.unicastRoutes preference dest).getD []

def VppClient.cacheRoute (preference : UInt8) (route : UnicastRoute ρ) : VppClient ρ :=
  { client with
    unicastRoutes := update client.unicastRoutes preference
      (update (client.unicastRoutes preference) route.dest
        (if route.nextHops = [] then none else some route.nextHops)) }

section Requests

variable [DecidableEq ρ] [Inhabited ρ]

def addRoute (preference : UInt8) (route : UnicastRoute ρ) : ClientM ρ Unit := do
  let oldNextHops := (← get).cached preference route.dest
  oldNextHops.forM fun oldNextHop =>
    if oldNextHop ∉ route.nextHops then addDelNextHop vpp preference route.dest oldNextHop false
    else pure ()
  route.nextHops.forM fun newNextHop =>
    if newNextHop ∉ oldNextHops then addDelNextHop vpp preference route.dest newNextHop true
    else pure ()
  modify fun client => client.cacheRoute preference route

def deleteRoute (preference : UInt8) (dest : IpPrefix) : ClientM ρ Unit :=
  addRoute vpp preference ⟨dest, []⟩

/-- One path of the dump as a next hop. -/
def toNextHop (path : PathKey × UInt8) : ClientM ρ (NextHop ρ) := do
  let ifName ←
    if noInterface ≠ path.1.swIfIndex then some <$> vppIndexToIface vpp path.1.swIfIndex
    else pure none
  return ⟨path.1.nh, ifName, path.2.toNat, default⟩

def getRoutes (preference : UInt8) : ClientM ρ (List (UnicastRoute ρ)) := do
  let fib := (← get).fib
  let routes ← fib.ipv6Prefixes.mapM fun dest => do
    let nextHops ← (fib.pathsOf preference dest).mapM (toNextHop vpp)
    return ⟨dest, nextHops.mergeSort vpp.le⟩
  -- A route is reported if it has at least one next hop.
  return routes.filter fun route => route.nextHops ≠ []

/-- The cache of one preference is replaced by these routes. -/
def VppClient.resetCache (preference : UInt8) (routes : List (UnicastRoute ρ)) : VppClient ρ :=
  { client with
    unicastRoutes := update client.unicastRoutes preference
      fun dest => find dest (routes.map fun route => (route.dest, route.nextHops)) }

def syncRoutes (preference : UInt8) (routes : List (UnicastRoute ρ)) : ClientM ρ Unit := do
  let oldRoutes ← getRoutes vpp preference
  modify fun client => client.resetCache preference oldRoutes
  routes.forM (addRoute vpp preference)
  oldRoutes.forM fun route =>
    if route.dest ∉ routes.map UnicastRoute.dest then deleteRoute vpp preference route.dest
    else pure ()

end Requests

/-! ### What a next hop stands for -/

/-- The index that a lookup of the name ends with. -/
def Vpp.indexOf (ifName : String) : Option UInt32 :=
  if ifName = vpp.popTap ∧ find ifName vpp.interfaces.reverse = none then
    if getBVIFromBridgeDomain vpp ≠ 0 then some (getBVIFromBridgeDomain vpp) else none
  else find ifName vpp.interfaces.reverse

/-- The path that is programmed for a next hop; none if its interface is unknown to VPP. -/
def Vpp.path (dest : IpPrefix) (nextHop : NextHop ρ) : Option (PathKey × UInt8) :=
  (match nextHop.ifName with
    | some ifName => vpp.indexOf ifName
    | none => some noInterface).map
    fun swIfIndex => (⟨vpp.nhAddress dest nextHop, swIfIndex⟩, pathWeight nextHop)

end Client

open Guarded Reconcile List EStateM

/-! ### VPP's table -/

namespace Fib

variable {fib : Fib} {preference : UInt8} {dest : IpPrefix}

theorem mem_pathsOf {key : PathKey} {weight : UInt8} : (key, weight) ∈ fib.pathsOf preference dest ↔
      fib.table preference dest key = some weight := by
  rw [table, find_eq_some_iff fib.nodup, pathsOf, mem_filterMap]
  constructor
  · rintro ⟨⟨⟨_, _, _⟩, _⟩, member, selected⟩
    split at selected
    · next here =>
      obtain ⟨rfl, rfl⟩ := here
      cases selected
      exact member
    · cases selected
  · intro member
    exact ⟨_, member, if_pos ⟨rfl, rfl⟩⟩

theorem nodup_pathsOf : ((fib.pathsOf preference dest).map fun path => some path.1).Nodup := by
  have same : ((fib.pathsOf preference dest).map fun path => some path.1) =
      (keys fib.paths).filterMap fun key =>
        if key.1 = dest ∧ key.2.1 = preference then some (some key.2.2) else none := by
    rw [pathsOf, map_filterMap, filterMap_map]
    congr
    funext path
    rw [comp_apply]
    split
    · rfl
    · rfl
  rw [same]
  apply fib.nodup.filterMap
  rintro ⟨_, _, _⟩ ⟨_, _, _⟩ _ isFound isFound'
  rw [Option.mem_def, Option.ite_none_right_eq_some] at isFound isFound'
  obtain ⟨⟨rfl, rfl⟩, isKey⟩ := isFound
  obtain ⟨⟨rfl, rfl⟩, isKey'⟩ := isFound'
  rw [← isKey'] at isKey
  cases isKey
  rfl

theorem nodup_pathKeys : ((fib.pathsOf preference dest).map Prod.fst).Nodup := by
  have nodup : ((fib.pathsOf preference dest).map (some ∘ Prod.fst)).Nodup := nodup_pathsOf
  rw [← map_map] at nodup
  exact nodup.of_map some

theorem mem_ipv6Prefixes {key : PathKey} {weight : UInt8}
    (isPath : fib.table preference dest key = some weight) (isIpv6 : dest.isIpv6 = true) :
    dest ∈ fib.ipv6Prefixes := by
  rw [ipv6Prefixes, mem_dedup, mem_filter, mem_map]
  exact ⟨⟨_, mem_of_find isPath, rfl⟩, isIpv6⟩

end Fib

section Client

variable {ρ : Type} {vpp : Vpp ρ}

/-! ### The interface caches -/

/-- The interface caches hold VPP's interfaces, and besides them at most the POP tap. -/
structure Interfaced (vpp : Vpp ρ) (client : VppClient ρ) : Prop where
  names : ∀ {ifName index}, client.ifNameToIndex ifName = some index →
    vpp.indexOf ifName = some index
  tables : ∀ {ifName}, client.ifNameToIndex ifName = none →
    find ifName vpp.interfaces.reverse = none
  indices : ∀ {index}, client.ifIndexToName index = none →
    find index (vpp.interfaces.map Prod.swap).reverse = none

/-- The two calls that look an interface up change nothing but the interface caches. -/
structure Looked (vpp : Vpp ρ) (client client' : VppClient ρ) : Prop where
  interfaced : Interfaced vpp client'
  fib : client'.fib = client.fib
  unicastRoutes : client'.unicastRoutes = client.unicastRoutes

theorem foldl_cacheInterface (interfaces : List (String × UInt32)) (client : VppClient ρ) :
    interfaces.foldl cacheInterface client = { client with
        ifNameToIndex := putAll interfaces client.ifNameToIndex
        ifIndexToName := putAll (interfaces.map Prod.swap) client.ifIndexToName } := by
  induction interfaces generalizing client with
  | nil => rfl
  | cons _ _ ih =>
    rw [foldl_cons, ih]
    rfl

variable (client : VppClient ρ)

theorem ifNameToIndex_updateInterfaces (ifName : String) :
    (updateInterfaces vpp client).ifNameToIndex ifName =
      (find ifName vpp.interfaces.reverse).or (client.ifNameToIndex ifName) := by
  rw [updateInterfaces, foldl_cacheInterface]
  exact putAll_apply _ _ _

theorem ifIndexToName_updateInterfaces (index : UInt32) :
    (updateInterfaces vpp client).ifIndexToName index =
      (find index (vpp.interfaces.map Prod.swap).reverse).or (client.ifIndexToName index) := by
  rw [updateInterfaces, foldl_cacheInterface]
  exact putAll_apply _ _ _

theorem ifNameToIndex_cacheInterface (interface : String × UInt32) (ifName : String) :
    (cacheInterface client interface).ifNameToIndex ifName =
      if ifName = interface.1 then some interface.2 else client.ifNameToIndex ifName :=
  update_apply _ _ _ _

variable {ifName : String}

theorem indexOf_of_find {index : UInt32} (found : find ifName vpp.interfaces.reverse = some index) :
    vpp.indexOf ifName = some index := by
  rw [Vpp.indexOf, if_neg, found]
  rintro ⟨_, missing⟩
  rw [missing] at found
  cases found

variable {client}

theorem updateInterfaces_interfaced
    (names : ∀ {ifName index}, client.ifNameToIndex ifName = some index →
      vpp.indexOf ifName = some index) : Interfaced vpp (updateInterfaces vpp client) := by
  refine ⟨?_, ?_, ?_⟩
  · intro _ _ isIndex
    rw [ifNameToIndex_updateInterfaces, Option.or_eq_some_iff] at isIndex
    rcases isIndex with found | ⟨_, cached⟩
    · exact indexOf_of_find found
    · exact names cached
  · intro _ isNone
    rw [ifNameToIndex_updateInterfaces, Option.or_eq_none_iff] at isNone
    exact isNone.1
  · intro _ isNone
    rw [ifIndexToName_updateInterfaces, Option.or_eq_none_iff] at isNone
    exact isNone.1

theorem updateInterfaces_looked (interfaced : Interfaced vpp client) :
    Looked vpp client (updateInterfaces vpp client) := by
  refine ⟨updateInterfaces_interfaced interfaced.names, ?_, ?_⟩
  · rw [updateInterfaces, foldl_cacheInterface]
  · rw [updateInterfaces, foldl_cacheInterface]

theorem init_interfaced (vpp : Vpp ρ) (fib : Fib) : Interfaced vpp (VppClient.init vpp fib) :=
  updateInterfaces_interfaced nofun

theorem fib_init (vpp : Vpp ρ) (fib : Fib) : (VppClient.init vpp fib).fib = fib := by
  rw [VppClient.init, updateInterfaces, foldl_cacheInterface]

theorem cached_init (vpp : Vpp ρ) (fib : Fib) (preference : UInt8) (dest : IpPrefix) :
    (VppClient.init vpp fib).cached preference dest = [] := by
  rw [VppClient.init, updateInterfaces, foldl_cacheInterface]
  rfl

theorem cacheInterface_looked (interfaced : Interfaced vpp client) {index : UInt32}
    (known : vpp.indexOf ifName = some index) :
    Looked vpp client (cacheInterface client (ifName, index)) := by
  refine ⟨⟨?_, ?_, ?_⟩, rfl, rfl⟩
  · intro _ _ isIndex
    rw [ifNameToIndex_cacheInterface] at isIndex
    split at isIndex
    · next same =>
      rw [same, known]
      exact isIndex
    · exact interfaced.names isIndex
  · intro _ isNone
    rw [ifNameToIndex_cacheInterface] at isNone
    split at isNone
    · cases isNone
    · exact interfaced.tables isNone
  · intro _ isNone
    simp only [cacheInterface, update_apply] at isNone
    split at isNone
    · cases isNone
    · exact interfaced.indices isNone

variable {client' client'' : VppClient ρ}

theorem Looked.trans (first : Looked vpp client client')
    (second : Looked vpp client' client'') : Looked vpp client client'' where
  interfaced := second.interfaced
  fib := second.fib.trans first.fib
  unicastRoutes := second.unicastRoutes.trans first.unicastRoutes

section

variable (interfaced : Interfaced vpp client)
include interfaced

/-- A name that is not cached is not one of VPP's names; only the POP tap can be found. -/
theorem queryInterface_spec (missing : client.ifNameToIndex ifName = none) :
    Looked vpp client (queryInterface vpp ifName client) ∧
      (queryInterface vpp ifName client).ifNameToIndex ifName = vpp.indexOf ifName := by
  have unknown := interfaced.tables missing
  have looked := updateInterfaces_looked interfaced
  rw [queryInterface]
  split
  · next isPop =>
    have mapped : vpp.indexOf ifName = some (getBVIFromBridgeDomain vpp) := by
      rw [Vpp.indexOf, if_pos ⟨isPop.1, unknown⟩, if_pos isPop.2]
    refine ⟨looked.trans (cacheInterface_looked looked.interfaced mapped), ?_⟩
    rw [ifNameToIndex_cacheInterface, if_pos rfl, mapped]
  · next notPop =>
    refine ⟨looked, ?_⟩
    rw [ifNameToIndex_updateInterfaces, unknown, missing, Vpp.indexOf]
    split
    · next here =>
      rw [if_neg fun known => notPop ⟨here.1, known⟩]
      rfl
    · exact unknown.symm

theorem run_ifaceToVppIndex (ifName : String) : ∃ client', Looked vpp client client' ∧
      (ifaceToVppIndex vpp ifName).run client = match vpp.indexOf ifName with
        | some index => .ok index client'
        | none => .error ("Could not find vpp interface index for " ++ ifName) client' := by
  cases cached : client.ifNameToIndex ifName with
  | some =>
    refine ⟨client, ⟨interfaced, rfl, rfl⟩, ?_⟩
    simp only [ifaceToVppIndex, run_bind, run_get, cached, interfaced.names cached]
    rfl
  | none =>
    obtain ⟨looked, found⟩ := queryInterface_spec interfaced cached
    refine ⟨queryInterface vpp ifName client, looked, ?_⟩
    simp only [ifaceToVppIndex, run_bind, run_get, run_modify, cached, found]
    cases vpp.indexOf ifName with
    | some index | none => rfl

theorem run_vppIndexToIface (index : UInt32) : match client.ifIndexToName index with
    | some ifName => (vppIndexToIface vpp index).run client = .ok ifName client
    | none => ∃ what client', (vppIndexToIface vpp index).run client = .error what client' ∧
        Looked vpp client client' := by
  cases cached : client.ifIndexToName index with
  | some =>
    simp only [vppIndexToIface, run_bind, run_get, cached]
    rfl
  | none =>
    have still : (updateInterfaces vpp client).ifIndexToName index = none := by
      rw [ifIndexToName_updateInterfaces, interfaced.indices cached, cached]
      rfl
    refine ⟨"Could not find vpp interface name for " ++ toString index.toBitVec.toInt,
      updateInterfaces vpp client, ?_, updateInterfaces_looked interfaced⟩
    simp only [vppIndexToIface, run_bind, run_get, run_modify, cached, still]
    rfl

end

/-! ### One path -/

/-- The paths of one preference for one prefix have changed, and the interface caches may have. -/
structure Changed (vpp : Vpp ρ) (preference : UInt8) (dest : IpPrefix)
    (table : Table PathKey UInt8) (client client' : VppClient ρ) : Prop where
  interfaced : Interfaced vpp client'
  unicastRoutes : client'.unicastRoutes = client.unicastRoutes
  here : client'.fib.table preference dest = table
  elsewhere : ∀ preference' dest', preference' ≠ preference ∨ dest' ≠ dest →
    client'.fib.table preference' dest' = client.fib.table preference' dest'

variable {dest : IpPrefix}

theorem Changed.trans {preference : UInt8} {table table' : Table PathKey UInt8}
    (first : Changed vpp preference dest table client client')
    (second : Changed vpp preference dest table' client' client'') :
    Changed vpp preference dest table' client client'' where
  interfaced := second.interfaced
  unicastRoutes := second.unicastRoutes.trans first.unicastRoutes
  here := second.here
  elsewhere preference' dest' other :=
    (second.elsewhere preference' dest' other).trans (first.elsewhere preference' dest' other)

theorem Looked.changed (looked : Looked vpp client client') (preference : UInt8) (dest : IpPrefix) :
    Changed vpp preference dest (client.fib.table preference dest) client client' where
  interfaced := looked.interfaced
  unicastRoutes := looked.unicastRoutes
  here := by rw [looked.fib]
  elsewhere preference' dest' _ := by rw [looked.fib]

/-- The next hop has no interface, or one that VPP knows. -/
def Vpp.knows (vpp : Vpp ρ) (nextHop : NextHop ρ) : Bool :=
  match nextHop.ifName with
  | some ifName => (vpp.indexOf ifName).isSome
  | none => true

theorem path_isSome (vpp : Vpp ρ) (dest : IpPrefix) (nextHop : NextHop ρ) :
    (vpp.path dest nextHop).isSome = vpp.knows nextHop := by
  rw [Vpp.path, Vpp.knows, Option.isSome_map]
  cases nextHop.ifName with
  | some ifName | none => rfl

def programmed (isAdd : Bool) (paths : List (PathKey × UInt8)) (table : Table PathKey UInt8) :
    Table PathKey UInt8 :=
  if isAdd then putAll paths table else dropAll (keys paths) table

theorem Looked.programmed (looked : Looked vpp client client')
    (preference : UInt8) (dest : IpPrefix) (isAdd : Bool) (path : PathKey × UInt8) :
    Changed vpp preference dest (programmed isAdd [path] (client.fib.table preference dest)) client
      { client' with
        fib :=
          if isAdd then client'.fib.add dest preference path.1 path.2
          else client'.fib.del dest preference path.1 } := by
  rw [looked.fib]
  have found : ∀ preference' dest' key, (if isAdd then client.fib.add dest preference path.1 path.2
        else client.fib.del dest preference path.1).table preference' dest' key =
      if (dest', preference', key) = (dest, preference, path.1) then
        if isAdd then some path.2 else none
      else client.fib.table preference' dest' key := by
    intro preference' dest' key
    cases isAdd with
    | true => exact (find_upsert _ _ _ _ _).trans (if_congr eq_comm rfl rfl)
    | false => exact find_remove _ _ _
  refine ⟨{ looked.interfaced with }, looked.unicastRoutes, ?_, ?_⟩
  · funext key
    rw [found]
    cases isAdd with
    | true | false =>
      by_cases same : key = path.1
      · simp [VppFib.programmed, putAll, dropAll, AssocList.keys, same]
      · simp [VppFib.programmed, putAll, dropAll, AssocList.keys, same]
  · intro _ _ other
    funext key
    rw [found, if_neg]
    intro same
    cases same
    simp at other

theorem run_addDelNextHop (interfaced : Interfaced vpp client) (preference : UInt8)
    (dest : IpPrefix) (nextHop : NextHop ρ) (isAdd : Bool) :
    ∃ client', match vpp.path dest nextHop with
      | some path =>
        (addDelNextHop vpp preference dest nextHop isAdd).run client = .ok () client' ∧
          Changed vpp preference dest
            (programmed isAdd [path] (client.fib.table preference dest)) client client'
      | none =>
        (∃ what, (addDelNextHop vpp preference dest nextHop isAdd).run client =
          .error what client') ∧
          Changed vpp preference dest (client.fib.table preference dest) client client' := by
  cases hasName : nextHop.ifName with
  | none =>
    have same : Looked vpp client client := ⟨interfaced, rfl, rfl⟩
    rw [Vpp.path, hasName]
    refine ⟨_, ?_, same.programmed preference dest isAdd _⟩
    rw [addDelNextHop, hasName]
    rfl
  | some ifName =>
    obtain ⟨client', looked, ran⟩ := run_ifaceToVppIndex interfaced ifName
    have isPath : vpp.path dest nextHop = (vpp.indexOf ifName).map
        fun swIfIndex => (⟨vpp.nhAddress dest nextHop, swIfIndex⟩, pathWeight nextHop) := by
      rw [Vpp.path, hasName]
    rw [isPath]
    cases known : vpp.indexOf ifName with
    | none =>
      rw [known] at ran
      refine ⟨client', ⟨"Could not find vpp interface index for " ++ ifName, ?_⟩,
        looked.changed preference dest⟩
      rw [addDelNextHop, hasName]
      exact bind_eq_error.mpr (.inl ran)
    | some index =>
      rw [known] at ran
      refine ⟨_, ?_, looked.programmed preference dest isAdd _⟩
      rw [addDelNextHop, hasName]
      exact bind_eq_ok.mpr ⟨index, client', ran, rfl⟩

/-! ### A loop over next hops -/

/-- A loop over next hops gets as far as the first one whose interface is unknown. -/
theorem run_forM_addDelNextHop (interfaced : Interfaced vpp client) (preference : UInt8)
    (dest : IpPrefix) (isAdd : Bool) (nextHops : List (NextHop ρ)) :
    ∃ client', Changed vpp preference dest
        (programmed isAdd ((nextHops.takeWhile vpp.knows).filterMap (vpp.path dest))
          (client.fib.table preference dest)) client client' ∧
      if nextHops.all vpp.knows then
        (forM nextHops (addDelNextHop vpp preference dest · isAdd)).run client = .ok () client'
      else
        ∃ what, (forM nextHops (addDelNextHop vpp preference dest · isAdd)).run client =
          .error what client' := by
  induction nextHops generalizing client with
  | nil =>
    have same : Looked vpp client client := ⟨interfaced, rfl, rfl⟩
    refine ⟨client, ?_, rfl⟩
    cases isAdd with
    | true | false => exact same.changed preference dest
  | cons nextHop _ ih =>
    obtain ⟨client', first⟩ := run_addDelNextHop interfaced preference dest nextHop isAdd
    have isKnown := path_isSome vpp dest nextHop
    rw [takeWhile_cons, all_cons, ← isKnown]
    cases path : vpp.path dest nextHop with
    | none =>
      rw [path] at first
      obtain ⟨⟨what, failed⟩, changed⟩ := first
      refine ⟨client', ?_, what, ?_⟩
      · cases isAdd with
        | true | false => exact changed
      · exact bind_eq_error.mpr (.inl failed)
    | some =>
      rw [path] at first
      obtain ⟨ran, changed⟩ := first
      obtain ⟨final, later, remaining⟩ := ih changed.interfaced
      refine ⟨final, ?_, ?_⟩
      · rw [changed.here] at later
        simp only [Option.isSome_some, if_true, filterMap_cons, path]
        cases isAdd with
        | true | false => exact changed.trans later
      · rw [Option.isSome_some, Bool.true_and]
        split
        · next allKnown =>
          rw [if_pos allKnown] at remaining
          exact bind_eq_ok.mpr ⟨(), client', ran, remaining⟩
        · next unknown =>
          rw [if_neg unknown] at remaining
          obtain ⟨what, failed⟩ := remaining
          refine ⟨what, ?_⟩
          exact bind_eq_error.mpr (.inr ⟨(), client', ran, failed⟩)

/-! ### What a list of routes says of one prefix -/

def listsFor (dest : IpPrefix) (routes : List (UnicastRoute ρ)) : List (List (NextHop ρ)) :=
  (routes.filter fun route => route.dest = dest).map UnicastRoute.nextHops

theorem listsFor_cons (dest : IpPrefix) (route : UnicastRoute ρ) (rest : List (UnicastRoute ρ)) :
    listsFor dest (route :: rest) =
      if route.dest = dest then route.nextHops :: listsFor dest rest else listsFor dest rest := by
  by_cases same : route.dest = dest
  · simp [same, listsFor]
  · simp [same, listsFor]

variable {routes : List (UnicastRoute ρ)} {nextHops : List (NextHop ρ)}

theorem mem_listsFor :
    nextHops ∈ listsFor dest routes ↔ ⟨dest, nextHops⟩ ∈ routes := by
  rw [listsFor, mem_map]
  constructor
  · rintro ⟨_, member, rfl⟩
    obtain ⟨isRoute, here⟩ := mem_filter.mp member
    rw [← of_decide_eq_true here]
    exact isRoute
  · intro member
    exact ⟨⟨dest, nextHops⟩, mem_filter.mpr ⟨member, decide_eq_true rfl⟩, rfl⟩

theorem listsFor_append (dest : IpPrefix) (routes rest : List (UnicastRoute ρ)) :
    listsFor dest (routes ++ rest) = listsFor dest routes ++ listsFor dest rest := by
  rw [listsFor, filter_append, map_append]
  rfl

theorem listsFor_eq_nil :
    listsFor dest routes = [] ↔ dest ∉ routes.map UnicastRoute.dest := by
  simp [listsFor]

theorem cached_cacheRoute (client : VppClient ρ) (preference : UInt8) (route : UnicastRoute ρ)
    (preference' : UInt8) (dest : IpPrefix) :
    (client.cacheRoute preference route).cached preference' dest =
      if preference' = preference ∧ dest = route.dest then route.nextHops
      else client.cached preference' dest := by
  simp only [VppClient.cached, VppClient.cacheRoute]
  by_cases samePreference : preference' = preference
  · subst samePreference
    by_cases sameDest : dest = route.dest
    · cases isList : route.nextHops with
      | nil | cons nextHop rest => simp [sameDest]
    · simp [sameDest]
  · simp [samePreference]

/-! ### One route -/

section Routes

variable [DecidableEq ρ]

theorem addRoute_eq (preference : UInt8) (route : UnicastRoute ρ) :
    addRoute vpp preference route = (do
      let oldNextHops := (← get).cached preference route.dest
      forM (removed oldNextHops route.nextHops) (addDelNextHop vpp preference route.dest · false)
      forM (added oldNextHops route.nextHops) (addDelNextHop vpp preference route.dest · true)
      modify fun client => client.cacheRoute preference route) := by
  refine congrArg (get >>= ·) (funext fun _ => ?_)
  simp only [removed, added, ← forM_ite]
  rfl

/-- A route has been programmed and the client remembers it. -/
structure Routed (vpp : Vpp ρ) (preference : UInt8) (route : UnicastRoute ρ)
    (client client' : VppClient ρ) : Prop where
  interfaced : Interfaced vpp client'
  unicastRoutes : client'.unicastRoutes = (client.cacheRoute preference route).unicastRoutes
  here : client'.fib.table preference route.dest =
    reconciled (vpp.path route.dest) (client.cached preference route.dest) route.nextHops
      (client.fib.table preference route.dest)
  known : ∀ nextHop ∈ route.nextHops,
    nextHop ∈ client.cached preference route.dest ∨ vpp.knows nextHop
  elsewhere : ∀ preference' dest', preference' ≠ preference ∨ dest' ≠ route.dest →
    client'.fib.table preference' dest' = client.fib.table preference' dest'

/-- What the call sends before it meets an unknown interface. -/
def Vpp.partly (vpp : Vpp ρ) (dest : IpPrefix) (oldNextHops newNextHops : List (NextHop ρ))
    (table : Table PathKey UInt8) : Table PathKey UInt8 :=
  if (removed oldNextHops newNextHops).all vpp.knows then
    putAll (((added oldNextHops newNextHops).takeWhile vpp.knows).filterMap (vpp.path dest))
      (dropAll (keys ((removed oldNextHops newNextHops).filterMap (vpp.path dest))) table)
  else
    dropAll
      (keys
        (((removed oldNextHops newNextHops).takeWhile vpp.knows).filterMap (vpp.path dest)))
      table

theorem run_addRoute (interfaced : Interfaced vpp client) (preference : UInt8)
    (route : UnicastRoute ρ) :
    if (removed (client.cached preference route.dest) route.nextHops).all vpp.knows ∧
        (added (client.cached preference route.dest) route.nextHops).all vpp.knows then
      ∃ client', (addRoute vpp preference route).run client = .ok () client' ∧
        Routed vpp preference route client client'
    else
      ∃ what client', (addRoute vpp preference route).run client = .error what client' ∧
        Changed vpp preference route.dest
          (vpp.partly route.dest (client.cached preference route.dest) route.nextHops
            (client.fib.table preference route.dest)) client client' := by
  obtain ⟨middle, dropped, deleting⟩ := run_forM_addDelNextHop interfaced preference route.dest
    false (removed (client.cached preference route.dest) route.nextHops)
  obtain ⟨final, put, adding⟩ := run_forM_addDelNextHop dropped.interfaced preference route.dest
    true (added (client.cached preference route.dest) route.nextHops)
  rw [addRoute_eq, Vpp.partly]
  by_cases removable : (removed (client.cached preference route.dest) route.nextHops).all vpp.knows
  · have whole := takeWhile_eq_self_iff.mpr (all_eq_true.mp removable)
    rw [if_pos removable] at deleting ⊢
    rw [whole] at dropped
    have both := dropped.trans put
    rw [dropped.here] at both
    by_cases addable : (added (client.cached preference route.dest) route.nextHops).all vpp.knows
    · rw [if_pos addable] at adding
      rw [if_pos ⟨removable, addable⟩]
      have all := takeWhile_eq_self_iff.mpr (all_eq_true.mp addable)
      rw [all] at both
      refine ⟨final.cacheRoute preference route, ?_, ?_⟩
      · exact bind_eq_ok.mpr ⟨client, client, rfl, bind_eq_ok.mpr ⟨(), middle, deleting,
          bind_eq_ok.mpr ⟨(), final, adding, rfl⟩⟩⟩
      · refine ⟨{ both.interfaced with }, ?_, both.here, ?_, both.elsewhere⟩
        · rw [VppClient.cacheRoute, VppClient.cacheRoute, both.unicastRoutes]
        · intro nextHop member
          by_cases isOld : nextHop ∈ client.cached preference route.dest
          · exact .inl isOld
          · exact .inr (all_eq_true.mp addable nextHop (mem_added.mpr ⟨member, isOld⟩))
    · rw [if_neg addable] at adding
      obtain ⟨what, failed⟩ := adding
      rw [if_neg fun both => addable both.2]
      refine ⟨what, final, ?_, both⟩
      exact bind_eq_error.mpr (.inr ⟨client, client, rfl, bind_eq_error.mpr (.inr
        ⟨(), middle, deleting, bind_eq_error.mpr (.inl failed)⟩)⟩)
  · rw [if_neg removable] at deleting ⊢
    obtain ⟨what, failed⟩ := deleting
    rw [if_neg fun both => removable both.1]
    refine ⟨what, middle, ?_, dropped⟩
    exact bind_eq_error.mpr (.inr ⟨client, client, rfl, bind_eq_error.mpr (.inl failed)⟩)

variable {preference : UInt8} {route : UnicastRoute ρ}

theorem addRoute_ok (interfaced : Interfaced vpp client)
    (run : (addRoute vpp preference route).run client = .ok () client') :
    Routed vpp preference route client client' := by
  have outcome := run_addRoute interfaced preference route
  split at outcome
  · obtain ⟨_, ran, routed⟩ := outcome
    rw [run] at ran
    cases ran
    exact routed
  · obtain ⟨_, _, failed, _⟩ := outcome
    rw [run] at failed
    cases failed

/-! ### Routes one after the other -/

/-- Routes have been programmed one after the other. -/
structure Settled (vpp : Vpp ρ) (preference : UInt8) (routes : List (UnicastRoute ρ))
    (client client' : VppClient ρ) : Prop where
  interfaced : Interfaced vpp client'
  cached : ∀ dest, client'.cached preference dest =
    latest (client.cached preference dest) (listsFor dest routes)
  table : ∀ dest, client'.fib.table preference dest =
    settle (vpp.path dest) (client.cached preference dest) (listsFor dest routes)
      (client.fib.table preference dest)
  known : ∀ dest, ∀ nextHops ∈ listsFor dest routes, ∀ nextHop ∈ nextHops,
    nextHop ∈ client.cached preference dest ∨ vpp.knows nextHop
  otherCached : ∀ preference' ≠ preference, ∀ dest,
    client'.cached preference' dest = client.cached preference' dest
  otherTable : ∀ preference' ≠ preference, ∀ dest,
    client'.fib.table preference' dest = client.fib.table preference' dest

theorem Routed.cached (routed : Routed vpp preference route client client') (preference' : UInt8)
    (dest : IpPrefix) :
    client'.cached preference' dest =
      if preference' = preference ∧ dest = route.dest then route.nextHops
      else client.cached preference' dest := by
  rw [← cached_cacheRoute, VppClient.cached, routed.unicastRoutes]
  rfl

theorem Settled.nil (interfaced : Interfaced vpp client) (preference : UInt8) :
    Settled vpp preference [] client client where
  interfaced := interfaced
  cached _ := rfl
  table _ := rfl
  known _ _ member := by cases member
  otherCached _ _ _ := rfl
  otherTable _ _ _ := rfl

theorem Settled.cons (first : Routed vpp preference route client client')
    (rest : Settled vpp preference routes client' client'') :
    Settled vpp preference (route :: routes) client client'' := by
  refine ⟨rest.interfaced, ?_, ?_, ?_, ?_, ?_⟩
  · intro dest
    rw [rest.cached, listsFor_cons, first.cached]
    by_cases same : route.dest = dest
    · rw [if_pos ⟨rfl, same.symm⟩, if_pos same, latest_cons]
    · rw [if_neg fun both => same both.2.symm, if_neg same]
  · intro dest
    rw [rest.table, listsFor_cons, first.cached]
    by_cases same : route.dest = dest
    · subst same
      rw [if_pos ⟨rfl, rfl⟩, if_pos rfl, settle, first.here]
    · rw [if_neg fun both => same both.2.symm, if_neg same,
        first.elsewhere preference dest (.inr (Ne.symm same))]
  · intro dest nextHops isList nextHop member
    have later := rest.known dest nextHops
    rw [first.cached] at later
    rw [listsFor_cons] at isList
    by_cases same : route.dest = dest
    · subst same
      rw [if_pos rfl] at isList
      rw [if_pos ⟨rfl, rfl⟩] at later
      rcases mem_cons.mp isList with here | inRest
      · rw [here] at member
        exact first.known nextHop member
      · rcases later inRest nextHop member with isNew | isKnown
        · exact first.known nextHop isNew
        · exact .inr isKnown
    · rw [if_neg same] at isList
      rw [if_neg fun both => same both.2.symm] at later
      exact later isList nextHop member
  · intro preference' other _
    rw [rest.otherCached preference' other, first.cached, if_neg fun both => other both.1]
  · intro preference' other dest
    rw [rest.otherTable preference' other, first.elsewhere preference' dest (.inl other)]

theorem forM_addRoute_ok (interfaced : Interfaced vpp client)
    (run : (forM routes (addRoute vpp preference)).run client = .ok () client') :
    Settled vpp preference routes client client' := by
  induction routes generalizing client with
  | nil =>
    cases run
    exact .nil interfaced preference
  | cons _ _ ih =>
    rw [forM_cons, bind_eq_ok] at run
    obtain ⟨_, _, ran, remaining⟩ := run
    have first := addRoute_ok interfaced ran
    exact .cons first (ih first.interfaced remaining)

end Routes

/-! ### The dump -/

section Dump

variable [Inhabited ρ]

/-- The next hop that the dump gives for a path, as long as the name of its interface is cached. -/
def VppClient.hopOf (client : VppClient ρ) (path : PathKey × UInt8) : NextHop ρ where
  addr := path.1.nh
  ifName := if noInterface ≠ path.1.swIfIndex then client.ifIndexToName path.1.swIfIndex else none
  weight := path.2.toNat
  attributes := default

def VppClient.dumped (vpp : Vpp ρ) (client : VppClient ρ) (preference : UInt8)
    (dest : IpPrefix) : List (NextHop ρ) :=
  ((client.fib.pathsOf preference dest).map client.hopOf).mergeSort vpp.le

/-- The routes of the dump. -/
def VppClient.reported (vpp : Vpp ρ) (client : VppClient ρ) (preference : UInt8) :
    List (UnicastRoute ρ) :=
  (client.fib.ipv6Prefixes.map fun dest => ⟨dest, client.dumped vpp preference dest⟩).filter
    fun route => route.nextHops ≠ []

theorem run_toNextHop (interfaced : Interfaced vpp client) (path : PathKey × UInt8) :
    Reads (toNextHop vpp path) client (client.hopOf path) (Looked vpp client) := by
  by_cases bound : noInterface ≠ path.1.swIfIndex
  · have outcome := run_vppIndexToIface interfaced path.1.swIfIndex
    rw [toNextHop, if_pos bound, VppClient.hopOf, if_pos bound]
    cases named : client.ifIndexToName path.1.swIfIndex with
    | none =>
      rw [named] at outcome
      obtain ⟨what, client', thrown, looked⟩ := outcome
      refine .inr ⟨what, client', ?_, looked⟩
      exact bind_eq_error.mpr (.inl (bind_eq_error.mpr (.inl thrown)))
    | some =>
      rw [named] at outcome
      exact .bind (.bind (.inl outcome) (.inl rfl)) (.inl rfl)
  · rw [toNextHop, if_neg bound, VppClient.hopOf, if_neg bound]
    exact .inl rfl

theorem run_getRoutes (interfaced : Interfaced vpp client) (preference : UInt8) :
    Reads (getRoutes vpp preference) client (client.reported vpp preference)
      (Looked vpp client) := by
  refine .bind (.inl rfl) (.bind (.mapM fun dest _ => ?_) (.inl rfl))
  have nextHops : Reads ((client.fib.pathsOf preference dest).mapM (toNextHop vpp)) client _
      (Looked vpp client) := .mapM fun path _ => run_toNextHop interfaced path
  exact nextHops.bind (.inl rfl)

variable {preference : UInt8}

theorem mem_dumped {nextHop : NextHop ρ} : nextHop ∈ client.dumped vpp preference dest ↔
      ∃ path ∈ client.fib.pathsOf preference dest, client.hopOf path = nextHop := by
  rw [VppClient.dumped, mem_mergeSort, mem_map]

theorem mem_reported {route : UnicastRoute ρ} : route ∈ client.reported vpp preference ↔
      route.dest.isIpv6 = true ∧ route.nextHops = client.dumped vpp preference route.dest ∧
        route.nextHops ≠ [] := by
  rw [VppClient.reported, mem_filter, mem_map, decide_eq_true_eq]
  constructor
  · rintro ⟨⟨_, isPrefix, rfl⟩, nonempty⟩
    exact ⟨(mem_filter.mp (mem_dedup.mp isPrefix)).2, rfl, nonempty⟩
  · rintro ⟨isIpv6, isDumped, nonempty⟩
    refine ⟨⟨route.dest, ?_, by rw [← isDumped]⟩, nonempty⟩
    rw [isDumped, ne_eq, ← length_eq_zero_iff, VppClient.dumped, length_mergeSort, length_map,
      length_eq_zero_iff] at nonempty
    obtain ⟨_, isPath⟩ := exists_mem_of_ne_nil _ nonempty
    exact Fib.mem_ipv6Prefixes (Fib.mem_pathsOf.mp isPath) isIpv6

theorem nodup_reported (client : VppClient ρ) (preference : UInt8) :
    ((client.reported vpp preference).map UnicastRoute.dest).Nodup := by
  have prefixes := (client.fib.paths.map fun path => path.1.1).filter IpPrefix.isIpv6
    |>.nodup_dedup
  refine List.Nodup.sublist (filter_sublist.map _) ?_
  rw [map_map]
  exact (map_id _).symm ▸ prefixes

def VppClient.refreshed (vpp : Vpp ρ) (client : VppClient ρ) (preference : UInt8) : VppClient ρ :=
  client.resetCache preference (client.reported vpp preference)

theorem cached_refreshed (client : VppClient ρ) (preference : UInt8) (dest : IpPrefix) :
    (client.refreshed vpp preference).cached preference dest =
      if dest.isIpv6 then client.dumped vpp preference dest else [] := by
  have nodup : (keys ((client.reported vpp preference).map
      fun route => (route.dest, route.nextHops))).Nodup := by
    rw [AssocList.keys, map_map]
    exact nodup_reported client preference
  simp only [VppClient.refreshed, VppClient.resetCache, VppClient.cached]
  rw [update_self]
  cases found : find dest ((client.reported vpp preference).map
      fun route => (route.dest, route.nextHops)) with
  | some =>
    rw [find_eq_some_iff nodup, mem_map] at found
    obtain ⟨_, member, same⟩ := found
    cases same
    obtain ⟨isIpv6, isDumped, _⟩ := mem_reported.mp member
    rw [if_pos isIpv6, ← isDumped]
    rfl
  | none =>
    split
    · next isIpv6 =>
      by_contra nonempty
      have member : ⟨dest, client.dumped vpp preference dest⟩ ∈ client.reported vpp preference :=
        mem_reported.mpr ⟨isIpv6, rfl, Ne.symm nonempty⟩
      have listed := (find_eq_some_iff nodup).mpr (mem_map_of_mem member)
      rw [found] at listed
      cases listed
    · rfl

theorem cached_refreshed_of_ne (client : VppClient ρ) {preference preference' : UInt8}
    (other : preference' ≠ preference) (dest : IpPrefix) :
    (client.refreshed vpp preference).cached preference' dest = client.cached preference' dest := by
  simp only [VppClient.refreshed, VppClient.resetCache, VppClient.cached]
  rw [update_of_ne other]

theorem Interfaced.refreshed (interfaced : Interfaced vpp client) (preference : UInt8) :
    Interfaced vpp (client.refreshed vpp preference) where
  names := interfaced.names
  tables := interfaced.tables
  indices := interfaced.indices

/-! ### Synchronisation -/

/-- The routes of the dump that a sync does not list are programmed without next hops. -/
def VppClient.stale (vpp : Vpp ρ) (client : VppClient ρ) (preference : UInt8)
    (routes : List (UnicastRoute ρ)) : List (UnicastRoute ρ) :=
  ((client.reported vpp preference).filter fun route =>
    route.dest ∉ routes.map UnicastRoute.dest).map fun route => ⟨route.dest, []⟩

theorem mem_stale :
    ⟨dest, nextHops⟩ ∈ client.stale vpp preference routes ↔
      nextHops = [] ∧ dest ∉ routes.map UnicastRoute.dest ∧ dest.isIpv6 = true ∧
        client.dumped vpp preference dest ≠ [] := by
  rw [VppClient.stale, mem_map]
  constructor
  · rintro ⟨_, member, same⟩
    obtain ⟨isReported, absent⟩ := mem_filter.mp member
    obtain ⟨isIpv6, isDumped, nonempty⟩ := mem_reported.mp isReported
    cases same
    exact ⟨rfl, of_decide_eq_true absent, isIpv6, isDumped ▸ nonempty⟩
  · rintro ⟨rfl, absent, isIpv6, nonempty⟩
    refine ⟨⟨dest, client.dumped vpp preference dest⟩, mem_filter.mpr ⟨?_, ?_⟩, rfl⟩
    · exact mem_reported.mpr ⟨isIpv6, rfl, nonempty⟩
    · exact decide_eq_true absent

/-- A sync ends with the lists it was given, and with none for the other prefixes. -/
theorem latest_synced (vpp : Vpp ρ) (client : VppClient ρ) (preference : UInt8)
    (routes : List (UnicastRoute ρ)) (dest : IpPrefix) :
    latest (if dest.isIpv6 then client.dumped vpp preference dest else [])
        (listsFor dest (routes ++ client.stale vpp preference routes)) =
      latest [] (listsFor dest routes) := by
  rw [listsFor_append]
  by_cases listed : dest ∈ routes.map UnicastRoute.dest
  · have noneStale : listsFor dest (client.stale vpp preference routes) = [] := by
      rw [eq_nil_iff_forall_not_mem]
      intro _ isList
      exact (mem_stale.mp (mem_listsFor.mp isList)).2.1 listed
    rw [noneStale, append_nil]
    have nonempty : listsFor dest routes ≠ [] := fun empty => listsFor_eq_nil.mp empty listed
    cases isLists : listsFor dest routes with
    | nil => exact absurd isLists nonempty
    | cons => rw [latest_cons, latest_cons]
  · rw [listsFor_eq_nil.mpr listed, nil_append]
    cases isLists : listsFor dest (client.stale vpp preference routes) with
    | nil =>
      -- the prefix is not reported, so nothing was cached for it
      split
      · next isIpv6 =>
        by_contra nonempty
        have isStale : ⟨dest, []⟩ ∈ client.stale vpp preference routes :=
          mem_stale.mpr ⟨rfl, listed, isIpv6, nonempty⟩
        have isList := mem_listsFor.mpr isStale
        rw [isLists] at isList
        cases isList
      · rfl
    | cons first rest =>
      have member : latest first rest ∈ first :: rest := by
        rw [← latest_cons []]
        exact getLast_mem _
      rw [latest_cons]
      rw [← isLists] at member
      exact (mem_stale.mp (mem_listsFor.mp member)).1

variable [DecidableEq ρ]

/-- A sync that returns has settled the given routes and, without next hops, the stale ones. -/
theorem syncRoutes_ok (interfaced : Interfaced vpp client)
    (run : (syncRoutes vpp preference routes).run client = .ok () client') :
    Settled vpp preference (routes ++ client.stale vpp preference routes)
      (client.refreshed vpp preference) client' := by
  obtain ⟨_, _, dumping, run⟩ := bind_eq_ok.mp run
  rcases run_getRoutes interfaced preference with ran | ⟨_, _, thrown, _⟩
  · rw [dumping] at ran
    cases ran
    obtain ⟨_, _, isRefreshed, run⟩ := bind_eq_ok.mp run
    cases isRefreshed
    obtain ⟨_, programmed, adding, deleting⟩ := bind_eq_ok.mp run
    apply forM_addRoute_ok (interfaced.refreshed preference)
    rw [forM_append]
    refine bind_eq_ok.mpr ⟨(), programmed, adding, ?_⟩
    have loop := forM_ite (fun route : UnicastRoute ρ => route.dest ∉ routes.map UnicastRoute.dest)
      (fun route => deleteRoute vpp preference route.dest) (client.reported vpp preference)
    rw [VppClient.stale, forM_map, ← deleting]
    exact congrArg (·.run programmed) loop.symm
  · rw [dumping] at thrown
    cases thrown

end Dump

end Client

end Terragraph.VppFib
