/-
Module: Terragraph.Chaperone.Tunnels
Purpose: The tunnels that vpp-chaperone configures.
Trusted boundary: human-reviewed embedding of `VppConfigManager.cpp`, `NetUtils.cpp` and `VppClient.cpp`
Main exports: transformIPv6, sr_addresses_distinct_iff, vxlan_exact_iff
-/
import Mathlib

namespace Terragraph.Chaperone

open Nat List

/-! ### Addresses -/

/-- An address: its first seven hextets, and the four hexadecimal digits of the final one as in
`toFullyQualified`, the last digit first. -/
structure Ipv6 where
  network : BitVec 112
  finalHextet : List Nat
deriving DecidableEq

/-- `NetUtils::transformIPv6`; there is no address if the hextet differs or the text is no address.
-/
def transformIPv6 (ip : Ipv6) (finalHextet replaceHextet : List Nat) : Option Ipv6 :=
  if ip.finalHextet = finalHextet ∧ replaceHextet ≠ [] ∧ replaceHextet.length ≤ 4 then
    some { ip with finalHextet := replaceHextet ++ replicate (4 - replaceHextet.length) 0 }
  else none

/-- The hextet `0001`. -/
def nodeHextet : List Nat := [1, 0, 0, 0]

/-! ### SRv6 tunnels -/

def srL2EncapBaseHextet : Nat := 1001

def srL2DecapBaseHextet : Nat := 2001

/-- The address whose final hextet reads like a decimal number. -/
def srAddr (ip : Ipv6) (n : Nat) : Option Ipv6 := transformIPv6 ip nodeHextet (digits 10 n)

/-- `NetUtils::parseVlanFromSrv6IpAddr` -/
def parseVlanFromSrv6IpAddr (ip : Ipv6) (baseHextet : Nat) : Int :=
  if ∀ digit ∈ ip.finalHextet, digit < 10 then
    (ofDigits 10 ip.finalHextet : Nat) - (baseHextet : Int)
  else -1

structure SrPolicy where
  bsid : Ipv6
  sidLists : List (List Ipv6)

/-- The policy that `doSrTunnelConfig` adds. -/
def srPolicy (globalV6 dstIp : Ipv6) (vlanId : Nat) : Option SrPolicy := do
  let localL2EncapAddr ← srAddr globalV6 (srL2EncapBaseHextet + vlanId)
  let dstL2DecapAddr ← srAddr dstIp (srL2DecapBaseHextet + vlanId)
  return { bsid := localL2EncapAddr, sidLists := [[dstL2DecapAddr]] }

/-- The VLAN ID under which `getSrPolicyDumps` enters a policy, if it does. -/
def dumpedVlan (policy : SrPolicy) : Option Int := do
  let sids ← policy.sidLists.head?
  let decapAddr ← sids.getLast?
  let encapVlan := parseVlanFromSrv6IpAddr policy.bsid srL2EncapBaseHextet
  let decapVlan := parseVlanFromSrv6IpAddr decapAddr srL2DecapBaseHextet
  if encapVlan = -1 ∨ decapVlan = -1 ∨ encapVlan ≠ decapVlan then none else some encapVlan

section Digits

variable {ip made : Ipv6} {n m : Nat}

theorem srAddr_exists (ends : ip.finalHextet = nodeHextet) (positive : n ≠ 0) (four : n < 10 ^ 4) :
    ∃ made, srAddr ip n = some made := by
  have short := (digits_length_le_iff (by decide) n).mpr four
  rw [srAddr, transformIPv6, if_pos ⟨ends, digits_ne_nil_iff_ne_zero.mpr positive, short⟩]
  exact ⟨_, rfl⟩

theorem decimal_srAddr (isMade : srAddr ip n = some made) :
    ofDigits 10 made.finalHextet = n ∧ ∀ digit ∈ made.finalHextet, digit < 10 := by
  simp only [srAddr, transformIPv6, Option.ite_none_right_eq_some] at isMade
  obtain ⟨_, same⟩ := isMade
  cases same
  constructor
  · rw [ofDigits_append_replicate_zero, ofDigits_digits]
  · intro _ member
    rcases mem_append.mp member with isDigit | isZero
    · exact digits_lt_base (by decide) isDigit
    · rw [eq_of_mem_replicate isZero]
      decide

theorem parseVlan_srAddr (isMade : srAddr ip n = some made) (baseHextet : Nat) :
    parseVlanFromSrv6IpAddr made baseHextet = n - baseHextet := by
  obtain ⟨number, decimal⟩ := decimal_srAddr isMade
  rw [parseVlanFromSrv6IpAddr, if_pos decimal, number]

end Digits

theorem dumpedVlan_srPolicy {globalV6 dstIp : Ipv6} {v : Nat} {policy : SrPolicy}
    (isPolicy : srPolicy globalV6 dstIp v = some policy) : dumpedVlan policy = some (v : Int) := by
  obtain ⟨_, isEncap, isPolicy⟩ := Option.bind_eq_some_iff.mp isPolicy
  obtain ⟨_, isDecap, same⟩ := Option.bind_eq_some_iff.mp isPolicy
  cases same
  have encapVlan := parseVlan_srAddr isEncap srL2EncapBaseHextet
  have decapVlan := parseVlan_srAddr isDecap srL2DecapBaseHextet
  simp [dumpedVlan, encapVlan, decapVlan]

/-- The addresses of a node's tunnels are distinct and each policy is dumped under its VLAN ID if and
only if no VLAN ID is 1000 more than another. -/
theorem sr_addresses_distinct_iff {globalV6 : Ipv6} (ends : globalV6.finalHextet = nodeHextet)
    {vlans : List Nat} (distinct : vlans.Nodup) (valid : ∀ v ∈ vlans, 1 ≤ v ∧ v ≤ 4094) :
    ((vlans.map (fun v => srAddr globalV6 (srL2EncapBaseHextet + v)) ++
        vlans.map fun v => srAddr globalV6 (srL2DecapBaseHextet + v)).Nodup ∧
      ∀ v ∈ vlans, ∀ dstIp policy, srPolicy globalV6 dstIp v = some policy →
        dumpedVlan policy = some (v : Int)) ↔
      ∀ v ∈ vlans, v + 1000 ∉ vlans := by
  have inj : ∀ base ≤ 2001, ∀ base' v, v ∈ vlans → ∀ v',
      srAddr globalV6 (base + v) = srAddr globalV6 (base' + v') → base + v = base' + v' := by
    intro base _ _ v member _ same
    have := valid v member
    obtain ⟨_, isMade⟩ := srAddr_exists ends (n := base + v) (by omega) (by omega)
    exact (decimal_srAddr isMade).1.symm.trans (decimal_srAddr (same ▸ isMade)).1
  simp only [srL2EncapBaseHextet, srL2DecapBaseHextet, nodup_append]
  constructor
  · rintro ⟨⟨_, _, apart⟩, _⟩ v member more
    apply apart _ (mem_map_of_mem more) _ (mem_map_of_mem member)
    congr 1
    omega
  · intro apart
    refine ⟨⟨distinct.map_on fun v member v' _ same => ?_, distinct.map_on
      fun v member v' _ same => ?_, ?_⟩, fun _ _ _ _ => dumpedVlan_srPolicy⟩
    · exact Nat.add_left_cancel (inj _ (by decide) _ v member v' same)
    · exact Nat.add_left_cancel (inj _ (by decide) _ v member v' same)
    · intro a inEncap b inDecap same
      obtain ⟨v, member, rfl⟩ := mem_map.mp inEncap
      obtain ⟨v', member', rfl⟩ := mem_map.mp inDecap
      have sum := inj _ (by decide) _ v member v' same
      apply apart v' member'
      rwa [show v' + 1000 = v by omega]

/-- The addresses of two tunnels with VLAN IDs 100 and 200. -/
theorem sr_addresses_distinct_of_two : let node : Ipv6 := ⟨0, nodeHextet⟩
    [srAddr node 1101, srAddr node 1201, srAddr node 2101, srAddr node 2201].Nodup :=
  ((sr_addresses_distinct_iff rfl (by decide : [100, 200].Nodup) (by decide)).mpr (by decide)).1

/-- The encapsulation address of VLAN 1100 is the decapsulation address of VLAN 100. -/
theorem sr_addresses_clash : ∃ ip, srAddr ⟨0, nodeHextet⟩ (srL2EncapBaseHextet + 1100) = some ip ∧
      srAddr ⟨0, nodeHextet⟩ (srL2DecapBaseHextet + 100) = some ip :=
  ⟨⟨0, [1, 0, 1, 2]⟩, by decide, by decide⟩

/-! ### VxLAN tunnels -/

def vxlanEndpointFinalHextet : List Nat := [2, 0, 0, 0]

structure VxlanTunnel where
  src : Ipv6
  dst : Ipv6
  vni : Int
deriving DecidableEq

/-- An entry of `tunnelConfig_`; `dstIp` is `none` where it is missing or empty. -/
structure TunnelConfig where
  tunnelType : String
  dstIp : Option Ipv6
  localInterface : Option String
  enabled : Bool
  vlanId : Option Int
  primaryTunnelName : Option String

/-- VPP's tunnels, and the map `currTunnels`. -/
structure VxlanState where
  vpp : List VxlanTunnel
  currTunnels : Ipv6 → Option VxlanTunnel

/-- `VppClient::getVxlanTunnelDumps`: under a destination, the last tunnel to it. -/
def getVxlanTunnelDumps (vpp : List VxlanTunnel) (dst : Ipv6) : Option VxlanTunnel :=
  vpp.reverse.find? (·.dst = dst)

section Vxlan

variable (cpeInterface : String) (loopback : Option Ipv6)

/-- `VppConfigManager::validateTunnelConfig` -/
def validateTunnelConfig (tunnel : TunnelConfig) : Bool :=
  tunnel.dstIp.isSome && tunnel.localInterface.getD cpeInterface != ""

/-- The destination of an entry's tunnel. -/
def tunnelDst (tunnel : TunnelConfig) : Option Ipv6 := do
  transformIPv6 (← tunnel.dstIp) nodeHextet vxlanEndpointFinalHextet

/-- The tunnel of an entry, if its addresses can be derived. -/
def vxlanTunnel (tunnel : TunnelConfig) : Option VxlanTunnel := do
  let src ← transformIPv6 (← loopback) nodeHextet vxlanEndpointFinalHextet
  let dst ← tunnelDst tunnel
  return { src, dst, vni := tunnel.vlanId.getD 100 }

/-- `VppConfigManager::doVxlanTunnelConfig`; the interfaces can be connected. -/
def doVxlanTunnelConfig (s : VxlanState) (tunnel : TunnelConfig) : VxlanState :=
  if tunnel.primaryTunnelName = some "" ∨ loopback = none then s else
  let added := if tunnel.enabled then vxlanTunnel loopback tunnel else none
  match (tunnelDst tunnel).bind s.currTunnels with
  | none => { s with vpp := added.toList ++ s.vpp }
  | some curr =>
    let s := { s with currTunnels := Function.update s.currTunnels curr.dst none }
    if added = some curr then s
    else { s with vpp := added.toList ++ s.vpp.filter (· ≠ curr) }

/-- `VppConfigManager::doTunnelConfig`: VPP's tunnels after it. -/
def doTunnelConfig (tunnelConfig : List TunnelConfig) (vpp : List VxlanTunnel) :
    List VxlanTunnel :=
  let vxlans := tunnelConfig.filter fun tunnel =>
    validateTunnelConfig cpeInterface tunnel && tunnel.tunnelType == "VXLAN"
  let s := vxlans.foldl (doVxlanTunnelConfig loopback)
    { vpp, currTunnels := getVxlanTunnelDumps vpp }
  s.vpp.filter fun tunnel => s.currTunnels tunnel.dst ≠ some tunnel

/-- `doVxlanTunnelConfig` makes VPP have a tunnel for an entry. -/
def Adds (tunnel : TunnelConfig) (t : VxlanTunnel) : Prop :=
  tunnel.enabled ∧ tunnel.primaryTunnelName ≠ some "" ∧ vxlanTunnel loopback tunnel = some t

/-- A tunnel of VPP that is not under its destination in the map, so that it is not deleted. -/
def VxlanState.Keeps (s : VxlanState) (t : VxlanTunnel) : Prop :=
  t ∈ s.vpp ∧ s.currTunnels t.dst ≠ some t

/-- The entries of `currTunnels` are tunnels of VPP under their destination. -/
def VxlanState.Present (s : VxlanState) : Prop :=
  ∀ dst t, s.currTunnels dst = some t → t ∈ s.vpp ∧ t.dst = dst

variable {cpeInterface loopback} {s : VxlanState} {tunnel : TunnelConfig}

theorem tunnelDst_of_vxlanTunnel {t : VxlanTunnel} (made : vxlanTunnel loopback tunnel = some t) :
    loopback ≠ none ∧ tunnelDst tunnel = some t.dst := by
  simp only [vxlanTunnel, Option.bind_eq_bind, Option.bind_eq_some_iff] at made
  obtain ⟨_, isLoopback, _, _, _, isDst, same⟩ := made
  cases same
  exact ⟨by simp [isLoopback], isDst⟩

theorem doVxlanTunnelConfig_spec (present : s.Present) :
    (doVxlanTunnelConfig loopback s tunnel).Present ∧
      ∀ t, (doVxlanTunnelConfig loopback s tunnel).Keeps t ↔
        s.Keeps t ∨ Adds loopback tunnel t := by
  have isDst : ∀ t, vxlanTunnel loopback tunnel = some t → _ := fun _ => tunnelDst_of_vxlanTunnel
  unfold VxlanState.Present VxlanState.Keeps Adds at *
  unfold doVxlanTunnelConfig
  split
  · grind
  · generalize isAdded : (if tunnel.enabled then vxlanTunnel loopback tunnel else none) = added
    simp only
    split
    · grind
    · next curr found =>
      obtain ⟨dst, _, found⟩ := Option.bind_eq_some_iff.mp found
      split
      · grind [Function.update_apply]
      · grind [Function.update_apply]

theorem foldl_keeps (tunnels : List TunnelConfig) (present : s.Present) (t : VxlanTunnel) :
    (tunnels.foldl (doVxlanTunnelConfig loopback) s).Keeps t ↔
      s.Keeps t ∨ ∃ tunnel ∈ tunnels, Adds loopback tunnel t := by
  induction tunnels generalizing s with
  | nil => simp
  | cons tunnel rest ih =>
    obtain ⟨present', one⟩ := doVxlanTunnelConfig_spec present
    rw [foldl_cons, ih present', one, exists_mem_cons_iff, or_assoc]

/-- The tunnels of VPP are those of the enabled entries if and only if every tunnel of VPP that the
map lacks is one of them, and each of them is such a tunnel or one that an entry adds. -/
theorem vxlan_exact_iff (tunnelConfig : List TunnelConfig) (vpp : List VxlanTunnel) :
    let vxlans := tunnelConfig.filter fun tunnel => tunnel.tunnelType == "VXLAN"
    let tunnels := (vxlans.filter (·.enabled)).map (vxlanTunnel loopback)
    let dumped : VxlanState := { vpp, currTunnels := getVxlanTunnelDumps vpp }
    (∀ t, t ∈ (doTunnelConfig cpeInterface loopback tunnelConfig vpp).map some ↔ t ∈ tunnels) ↔
      (∀ t, dumped.Keeps t → some t ∈ tunnels) ∧
        ∀ tunnel ∈ tunnels, ∃ t, tunnel = some t ∧ (dumped.Keeps t ∨ ∃ entry ∈ vxlans,
          validateTunnelConfig cpeInterface entry ∧ Adds loopback entry t) := by
  intro vxlans _ dumped
  have present : dumped.Present := by
    intro _ t found
    exact ⟨mem_reverse.mp (mem_of_find?_eq_some found), by simpa using find?_some found⟩
  have final : ∀ t, t ∈ doTunnelConfig cpeInterface loopback tunnelConfig vpp ↔
      dumped.Keeps t ∨ ∃ entry ∈ vxlans,
        validateTunnelConfig cpeInterface entry ∧ Adds loopback entry t := by
    intro t
    rw [doTunnelConfig, mem_filter, decide_eq_true_iff]
    refine (foldl_keeps _ present t).trans (or_congr_right (exists_congr fun entry => ?_))
    rw [mem_filter, mem_filter, Bool.and_eq_true]
    tauto
  constructor
  · intro exact
    refine ⟨fun t kept => (exact _).mp (mem_map_of_mem ((final t).mpr (.inl kept))), ?_⟩
    intro tunnel member
    obtain ⟨t, inVpp, same⟩ := mem_map.mp ((exact tunnel).mpr member)
    exact ⟨t, same.symm, (final t).mp inVpp⟩
  · rintro ⟨stale, made⟩ tunnel
    constructor
    · intro member
      obtain ⟨t, inVpp, rfl⟩ := mem_map.mp member
      rcases (final t).mp inVpp with kept | ⟨entry, inVxlans, _, enabled, _, same⟩
      · exact stale t kept
      · exact same ▸ mem_map_of_mem (mem_filter.mpr ⟨inVxlans, enabled⟩)
    · intro member
      obtain ⟨t, rfl, kept⟩ := made tunnel member
      exact mem_map_of_mem ((final t).mpr kept)

/-- Of two tunnels to one destination the first stays, though no tunnel is configured. -/
theorem vxlan_stale_kept : let node : Ipv6 := ⟨0, [2, 0, 0, 0]⟩
    doTunnelConfig "" (some ⟨0, nodeHextet⟩) [] [⟨node, node, 1⟩, ⟨node, node, 2⟩] =
      [⟨node, node, 1⟩] := by
  decide

end Vxlan

end Terragraph.Chaperone
