/-
Module: Terragraph.VppFib.Reconciliation
Purpose: VPP's paths of a preference are those of the next hops last requested; what a call that
  throws part-way leaves behind, which destinations have a path after a sync, and how the thrift
  handler isolates its clients.
Trusted boundary: none beyond VppFib.Client
Main exports: paths_are_last_requested, synced_destinations_iff, clients_isolated_iff
-/
import Terragraph.Lib.Transition
import Terragraph.VppFib.Client

namespace Terragraph.VppFib

open Guarded Reconcile List Function

/-! ### Calls -/

/-- A call that changes routes. -/
inductive Request (ρ : Type) where
  | addRoute (preference : UInt8) (route : UnicastRoute ρ)
  | deleteRoute (preference : UInt8) (dest : IpPrefix)
  | syncRoutes (preference : UInt8) (routes : List (UnicastRoute ρ))

section Requests

variable {ρ : Type}

namespace Request

def preference : Request ρ → UInt8
  | addRoute preference _ => preference
  | deleteRoute preference _ => preference
  | syncRoutes preference _ => preference

/-- The routes that a call lists. -/
def routes : Request ρ → List (UnicastRoute ρ)
  | addRoute _ route => [route]
  | deleteRoute _ dest => [⟨dest, []⟩]
  | syncRoutes _ routes => routes

def exec [DecidableEq ρ] [Inhabited ρ] (vpp : Vpp ρ) : Request ρ → ClientM ρ Unit
  | addRoute preference route => VppFib.addRoute vpp preference route
  | deleteRoute preference dest => VppFib.deleteRoute vpp preference dest
  | syncRoutes preference routes => VppFib.syncRoutes vpp preference routes

/-- The next hops requested for each prefix; a sync also speaks for those it does not list. -/
def asked (last : IpPrefix → List (NextHop ρ)) : Request ρ → IpPrefix → List (NextHop ρ)
  | addRoute _ route => update last route.dest route.nextHops
  | deleteRoute _ dest => update last dest []
  | syncRoutes _ routes => fun dest => latest [] (listsFor dest routes)

def Distinct (vpp : Vpp ρ) (request : Request ρ) : Prop :=
  ∀ route ∈ request.routes, Reconcile.Distinct (vpp.path route.dest) route.nextHops

instance (vpp : Vpp ρ) (request : Request ρ) : Decidable (request.Distinct vpp) :=
  inferInstanceAs (Decidable (∀ route ∈ request.routes, _))

end Request

/-- The dump leads back to every path of the preference: VPP lists the prefix, names the interface,
and gives an address that is not rewritten. -/
def Named [Inhabited ρ] (vpp : Vpp ρ) (client : VppClient ρ) (preference : UInt8) : Prop :=
  ∀ dest key weight, client.fib.table preference dest key = some weight →
    dest.isIpv6 = true ∧ vpp.path dest (client.hopOf (key, weight)) = some (key, weight)

def Request.Readable [Inhabited ρ] (vpp : Vpp ρ) (client : VppClient ρ) : Request ρ → Prop
  | .syncRoutes preference _ => Named vpp client preference
  | _ => True

/-! ### The cache, VPP and what was requested -/

/-- VPP's paths and the cache of a preference are those of the next hops last requested. -/
structure Matches (vpp : Vpp ρ) (preference : UInt8) (last : IpPrefix → List (NextHop ρ))
    (client : VppClient ρ) : Prop where
  interfaced : Interfaced vpp client
  cached : ∀ dest, client.cached preference dest = last dest
  holding : ∀ dest, Holding (vpp.path dest) (last dest) (client.fib.table preference dest)

variable {vpp : Vpp ρ}

variable {client : VppClient ρ} {preference : UInt8}

theorem Named.matches [Inhabited ρ] (interfaced : Interfaced vpp client)
    (named : Named vpp client preference) :
    Matches vpp preference
      (fun dest => if dest.isIpv6 then client.dumped vpp preference dest else [])
      (client.refreshed vpp preference) := by
  refine ⟨interfaced.refreshed preference, cached_refreshed client preference, ?_⟩
  intro dest
  -- every next hop of the dump stands for the path it was read from
  have back : ∀ path ∈ client.fib.pathsOf preference dest, dest.isIpv6 = true ∧
      vpp.path dest (client.hopOf path) = some path := fun path isPath =>
    named dest path.1 path.2 (Fib.mem_pathsOf.mp isPath)
  by_cases isIpv6 : dest.isIpv6 = true
  · rw [if_pos isIpv6]
    refine ⟨?_, ?_, ?_⟩
    · intro key weight
      rw [← Fib.mem_pathsOf, mem_filterMap]
      constructor
      · intro isPath
        exact ⟨_, mem_dumped.mpr ⟨_, isPath, rfl⟩, (back _ isPath).2⟩
      · rintro ⟨_, isDumped, stands⟩
        obtain ⟨path, isPath, rfl⟩ := mem_dumped.mp isDumped
        rw [(back path isPath).2] at stands
        cases stands
        exact isPath
    · apply ((mergeSort_perm _ vpp.le).map _).nodup_iff.mpr
      rw [map_map, map_congr_left fun path isPath => by
        rw [comp_apply, (back path isPath).2]]
      exact Fib.nodup_pathsOf
    · intro _ isDumped
      obtain ⟨path, isPath, rfl⟩ := mem_dumped.mp isDumped
      rw [(back path isPath).2]
      rfl
  · rw [if_neg isIpv6]
    refine ⟨?_, nodup_nil, fun _ member => by cases member⟩
    intro key weight
    rw [← Fib.mem_pathsOf]
    constructor
    · intro isPath
      exact absurd (back _ isPath).1 isIpv6
    · intro member
      cases member

variable [DecidableEq ρ]

variable {last : IpPrefix → List (NextHop ρ)} {client' : VppClient ρ}

theorem Matches.settled {routes : List (UnicastRoute ρ)}
    (matched : Matches vpp preference last client)
    (settled : Settled vpp preference routes client client')
    (distinct : ∀ route ∈ routes, Reconcile.Distinct (vpp.path route.dest) route.nextHops) :
    Matches vpp preference (fun dest => latest (last dest) (listsFor dest routes)) client' := by
  refine ⟨settled.interfaced, ?_, ?_⟩
  · intro dest
    rw [settled.cached, matched.cached]
  · intro dest
    rw [settled.table, matched.cached]
    apply (matched.holding dest).settle
    · intro _ isList
      exact distinct _ (mem_listsFor.mp isList)
    · intro nextHops isList nextHop member
      rcases settled.known dest nextHops isList nextHop member with isOld | isKnown
      · rw [matched.cached] at isOld
        exact (matched.holding dest).total nextHop isOld
      · rw [path_isSome]
        exact isKnown

theorem Matches.untouched {preference preference' : UInt8} {routes : List (UnicastRoute ρ)}
    (matched : Matches vpp preference last client) (other : preference ≠ preference')
    (settled : Settled vpp preference' routes client client') :
    Matches vpp preference last client' where
  interfaced := settled.interfaced
  cached dest := by rw [settled.otherCached preference other, matched.cached]
  holding dest := by
    rw [settled.otherTable preference other]
    exact matched.holding dest

theorem Matches.addRoute {route : UnicastRoute ρ} (matched : Matches vpp preference last client)
    (distinct : Reconcile.Distinct (vpp.path route.dest) route.nextHops)
    (run : (addRoute vpp preference route).run client = .ok () client') :
    Matches vpp preference (update last route.dest route.nextHops) client' := by
  have routed := addRoute_ok matched.interfaced run
  have asked : (fun dest => latest (last dest) (listsFor dest [route])) =
      update last route.dest route.nextHops := by
    funext dest
    rw [listsFor_cons, update_apply]
    by_cases same : dest = route.dest
    · rw [if_pos same.symm, if_pos same]
      rfl
    · rw [if_neg (Ne.symm same), if_neg same]
      rfl
  rw [← asked]
  apply matched.settled (.cons routed (.nil routed.interfaced preference))
  intro _ isRoute
  rw [mem_singleton.mp isRoute]
  exact distinct

section Sync

variable [Inhabited ρ]

/-! ### Whole runs -/

variable {request : Request ρ}

/-- A call of one preference, from routes that stand for what they list. -/
theorem Request.settled (interfaced : Interfaced vpp client)
    (run : (request.exec vpp).run client = .ok () client') :
    ∃ middle routes, Settled vpp request.preference routes middle client' ∧
      middle.fib = client.fib ∧ Interfaced vpp middle ∧
      ∀ preference ≠ request.preference, ∀ dest,
        middle.cached preference dest = client.cached preference dest := by
  cases request with
  | addRoute preference route =>
    have routed := addRoute_ok interfaced run
    exact ⟨client, [route], .cons routed (.nil routed.interfaced preference), rfl, interfaced,
      fun _ _ _ => rfl⟩
  | deleteRoute preference dest =>
    have routed := addRoute_ok interfaced run
    exact ⟨client, [⟨dest, []⟩], .cons routed (.nil routed.interfaced preference), rfl,
      interfaced, fun _ _ _ => rfl⟩
  | syncRoutes preference =>
    exact ⟨client.refreshed vpp preference, _, syncRoutes_ok interfaced run, rfl,
      interfaced.refreshed preference, fun _ other dest => cached_refreshed_of_ne client other dest⟩

theorem Request.otherTable (interfaced : Interfaced vpp client)
    (run : (request.exec vpp).run client = .ok () client') (other : preference ≠ request.preference)
    (dest : IpPrefix) :
    client'.fib.table preference dest = client.fib.table preference dest := by
  obtain ⟨_, _, settled, sameFib, _, _⟩ := request.settled interfaced run
  rw [settled.otherTable preference other, sameFib]

theorem Matches.other (matched : Matches vpp preference last client)
    (run : (request.exec vpp).run client = .ok () client') (other : preference ≠ request.preference) :
    Matches vpp preference last client' := by
  obtain ⟨middle, _, settled, sameFib, interfaced, sameCache⟩ :=
    request.settled matched.interfaced run
  have kept : Matches vpp preference last middle := by
    refine ⟨interfaced, ?_, ?_⟩
    · intro dest
      rw [sameCache preference other, matched.cached]
    · intro dest
      rw [sameFib]
      exact matched.holding dest
  exact kept.untouched other settled

/-- A completed sync needs no more than that VPP's paths can be read back. -/
theorem matches_syncRoutes {routes : List (UnicastRoute ρ)} (interfaced : Interfaced vpp client)
    (named : Named vpp client preference)
    (distinct : ∀ route ∈ routes, Reconcile.Distinct (vpp.path route.dest) route.nextHops)
    (run : (syncRoutes vpp preference routes).run client = .ok () client') :
    Matches vpp preference (fun dest => latest [] (listsFor dest routes)) client' := by
  have matched := (named.matches interfaced).settled (syncRoutes_ok interfaced run) (by
    intro route member
    rcases mem_append.mp member with isNew | isStale
    · exact distinct route isNew
    · obtain ⟨isEmpty, _⟩ := mem_stale.mp isStale
      rw [isEmpty]
      exact nodup_nil)
  refine ⟨matched.interfaced, ?_, ?_⟩
  · intro dest
    rw [matched.cached, latest_synced]
  · intro dest
    rw [← latest_synced vpp client preference routes dest]
    exact matched.holding dest

theorem Matches.step
    (matched : Matches vpp request.preference last client) (distinct : request.Distinct vpp)
    (readable : request.Readable vpp client) (run : (request.exec vpp).run client = .ok () client') :
    Matches vpp request.preference (request.asked last) client' := by
  cases request with
  | addRoute preference route | deleteRoute preference dest =>
    exact matched.addRoute (distinct _ mem_cons_self) run
  | syncRoutes =>
    exact matches_syncRoutes matched.interfaced readable distinct run

structure Tracked (ρ : Type) where
  client : VppClient ρ
  last : IpPrefix → List (NextHop ρ)

/-- Where a run begins. -/
inductive Tracked.Start (vpp : Vpp ρ) (preference : UInt8) : Tracked ρ → Prop where
  /-- VPP has no path of the preference, and the client has programmed none. -/
  | empty {client : VppClient ρ} (interfaced : Interfaced vpp client)
      (nothingCached : ∀ dest, client.cached preference dest = [])
      (noPaths : ∀ dest key, client.fib.table preference dest key = none) :
      Start vpp preference ⟨client, fun _ => []⟩
  /-- A sync of the preference has completed. -/
  | synced {before client : VppClient ρ} {routes : List (UnicastRoute ρ)}
      (interfaced : Interfaced vpp before)
      (distinct : (Request.syncRoutes preference routes).Distinct vpp)
      (readable : (Request.syncRoutes preference routes).Readable vpp before)
      (run : (syncRoutes vpp preference routes).run before = .ok () client) :
      Start vpp preference ⟨client, (Request.syncRoutes preference routes).asked fun _ => []⟩

/-- A call of any preference that completes without exception. -/
def Tracked.Step (vpp : Vpp ρ) (preference : UInt8) (state : Tracked ρ) (request : Request ρ)
    (state' : Tracked ρ) : Prop :=
  (request.exec vpp).run state.client = .ok () state'.client ∧
    state'.last = if request.preference = preference then request.asked state.last else state.last

/-- The next hops are told apart by VPP, and the dump for a sync leads back to VPP's paths. -/
def Tracked.Allowed (vpp : Vpp ρ) (state : Tracked ρ) (request : Request ρ) : Prop :=
  request.Distinct vpp ∧ request.Readable vpp state.client

theorem Tracked.matches_of_reaches {state : Tracked ρ}
    (reached : Transition.Reaches (Start vpp preference) (Step vpp preference) (Allowed vpp)
      state) : Matches vpp preference state.last state.client := by
  apply reached.invariant fun state => Matches vpp preference state.last state.client
  · intro _ started
    cases started with
    | empty interfaced nothingCached noPaths =>
      refine ⟨interfaced, nothingCached, fun dest => ⟨?_, nodup_nil, by simp⟩⟩
      intro key _
      rw [noPaths dest key]
      simp
    | synced interfaced distinct readable run =>
      exact matches_syncRoutes interfaced readable distinct run
  · intro _ _ _ matched allowed taken
    obtain ⟨run, asked⟩ := taken
    rw [asked]
    split
    · next same =>
      subst same
      exact matched.step allowed.1 allowed.2 run
    · next other => exact matched.other run (Ne.symm other)

/-- When syncs can read VPP's paths back, the paths of a preference are those last requested, and a
call changes no path of another preference. -/
theorem paths_are_last_requested (vpp : Vpp ρ) (preference : UInt8) {state : Tracked ρ}
    (reached : Transition.Reaches (Tracked.Start vpp preference) (Tracked.Step vpp preference)
      (Tracked.Allowed vpp) state) :
    (∀ dest key weight, state.client.fib.table preference dest key = some weight ↔
      ∃ nextHop ∈ state.last dest, vpp.path dest nextHop = some (key, weight)) ∧
    (∀ dest, ∀ nextHop ∈ state.last dest, vpp.knows nextHop) ∧
    ∀ (request : Request ρ) client', (request.exec vpp).run state.client = .ok () client' →
      ∀ preference' ≠ request.preference, ∀ dest,
        client'.fib.table preference' dest = state.client.fib.table preference' dest := by
  have matched := Tracked.matches_of_reaches reached
  refine ⟨?_, ?_, ?_⟩
  · intro dest key weight
    rw [(matched.holding dest).shows key weight, mem_filterMap]
  · intro dest nextHop member
    rw [← path_isSome vpp dest]
    exact (matched.holding dest).total nextHop member
  · intro _ _ run _ other dest
    exact Request.otherTable matched.interfaced run other dest

end Sync

/-! ### Two names for the interface of the POP tap

Once the POP tap is mapped to the BVI, the dump calls that interface by the name of the tap.  A next
hop that was programmed through the BVI's own name comes back as one of the tap, and its address is
rewritten when it is to be removed. -/

/-- A POP node: the bridge domain's BVI is `loop1`. -/
def popBridge : Vpp Unit where
  swInterfaces := [("loop1", 3)]
  interfaceMap := []
  bridgeDomain := [3]
  popTap := "tap1"
  le _ _ := true

def linkLocal (high low : UInt8) : Address :=
  0xfe :: 0x80 :: replicate 12 0 ++ [high, low]

def popRequests : List (Request Unit) :=
  [.addRoute 10 ⟨⟨linkLocal 0 1, 64⟩, [⟨linkLocal 0x10 1, some "tap1", 0, ()⟩]⟩,
    .addRoute 10 ⟨⟨linkLocal 0 2, 64⟩, [⟨linkLocal 0x10 1, some "loop1", 0, ()⟩]⟩,
    .syncRoutes 10 []]

/-- The rewritten address of the POP tap is not recognised, and its path stays. -/
theorem sync_keeps_path_of_pop_tap : (∀ request ∈ popRequests, request.Distinct popBridge ∧
      ∀ route ∈ request.routes, route.dest.isIpv6 = true) ∧
    returns ((popRequests.forM (Request.exec popBridge)).run (.init popBridge .empty)) = true ∧
    ∀ client', (popRequests.forM (Request.exec popBridge)).run (.init popBridge .empty) =
        .ok () client' →
      client'.fib.table 10 ⟨linkLocal 0 1, 64⟩ ⟨linkLocal 0 1, 3⟩ = none ∧
      client'.fib.table 10 ⟨linkLocal 0 2, 64⟩ ⟨linkLocal 0x10 1, 3⟩ = some 0 := by
  decide +kernel

/-- A route through the POP tap, on an empty table. -/
theorem paths_of_pop_route : ∃ state : Tracked Unit,
      state.last ⟨linkLocal 0 1, 64⟩ = [⟨linkLocal 0x10 1, some "tap1", 0, ()⟩] ∧
      state.client.fib.table 10 ⟨linkLocal 0 1, 64⟩ ⟨linkLocal 0 1, 3⟩ = some 0 := by
  let request : Request Unit :=
    .addRoute 10 ⟨⟨linkLocal 0 1, 64⟩, [⟨linkLocal 0x10 1, some "tap1", 0, ()⟩]⟩
  have ran : returns ((request.exec popBridge).run (.init popBridge .empty)) = true := by
    decide +kernel
  obtain ⟨_, client, run⟩ := exists_of_returns ran
  have started : Tracked.Start popBridge 10 ⟨.init popBridge .empty, fun _ => []⟩ :=
    .empty (init_interfaced popBridge .empty) (fun _ => rfl) fun _ _ => rfl
  have allowed : Tracked.Allowed popBridge ⟨.init popBridge .empty, fun _ => []⟩ request :=
    ⟨by decide +kernel, trivial⟩
  have taken : Tracked.Step popBridge 10 ⟨.init popBridge .empty, fun _ => []⟩ request
      ⟨client, request.asked fun _ => []⟩ := ⟨run, rfl⟩
  refine ⟨⟨client, request.asked fun _ => []⟩, rfl, ?_⟩
  apply ((paths_are_last_requested popBridge 10 (.step (.start started) allowed taken)).1 _ _ _).mpr
  exact ⟨_, mem_cons_self, by decide +kernel⟩

end Requests

open AssocList

section Failures

variable {ρ : Type} [DecidableEq ρ] {vpp : Vpp ρ}

/-! ### What a call leaves alone, whether it returns or throws -/

/-- The interface caches are VPP's and the paths of these preferences are as given. -/
structure Untouched (vpp : Vpp ρ) (others : UInt8 → Prop)
    (tables : UInt8 → IpPrefix → Table PathKey UInt8) (client : VppClient ρ) : Prop where
  interfaced : Interfaced vpp client
  same : ∀ preference, others preference → ∀ dest,
    client.fib.table preference dest = tables preference dest

variable {others : UInt8 → Prop} {tables : UInt8 → IpPrefix → Table PathKey UInt8}

theorem preserves_untouched_addRoute {preference : UInt8} (outside : ¬ others preference)
    (route : UnicastRoute ρ) :
    Preserves (Untouched vpp others tables) (addRoute vpp preference route) := by
  have different : ∀ {preference'}, others preference' → preference' ≠ preference :=
    fun isOther same => outside (same ▸ isOther)
  constructor
  · intro _ _ _ untouched run
    have routed := addRoute_ok untouched.interfaced run
    refine ⟨routed.interfaced, fun preference' isOther dest => ?_⟩
    rw [routed.elsewhere _ dest (.inl (different isOther)), untouched.same _ isOther]
  · intro _ _ _ untouched run
    have outcome := run_addRoute untouched.interfaced preference route
    split at outcome
    · obtain ⟨_, ran, _⟩ := outcome
      rw [run] at ran
      cases ran
    · obtain ⟨_, _, thrown, changed⟩ := outcome
      rw [run] at thrown
      cases thrown
      refine ⟨changed.interfaced, fun _ isOther dest => ?_⟩
      rw [changed.elsewhere _ dest (.inl (different isOther)), untouched.same _ isOther]

section Runs

variable [Inhabited ρ]

omit [DecidableEq ρ] in
theorem preserves_untouched_getRoutes (preference : UInt8) :
    Preserves (Untouched vpp others tables) (getRoutes vpp preference) := by
  constructor
  · intro _ _ _ untouched run
    rcases run_getRoutes untouched.interfaced preference with ran | ⟨_, _, thrown, _⟩
    · rw [run] at ran
      cases ran
      exact untouched
    · rw [run] at thrown
      cases thrown
  · intro _ _ _ untouched run
    rcases run_getRoutes untouched.interfaced preference with ran | ⟨_, _, thrown, looked⟩
    · rw [run] at ran
      cases ran
    · rw [run] at thrown
      cases thrown
      exact ⟨looked.interfaced, looked.fib ▸ untouched.same⟩

theorem preserves_untouched {request : Request ρ} (outside : ¬ others request.preference) :
    Preserves (Untouched vpp others tables) (request.exec vpp) := by
  cases request with
  | addRoute _ route => exact preserves_untouched_addRoute outside route
  | deleteRoute _ dest => exact preserves_untouched_addRoute outside ⟨dest, []⟩
  | syncRoutes preference routes =>
    refine (preserves_untouched_getRoutes preference).bind fun oldRoutes => ?_
    refine Preserves.bind (.modify fun _ untouched => ?_) fun _ => ?_
    · obtain ⟨interfaced, same⟩ := untouched
      exact ⟨{ interfaced with }, same⟩
    · refine Preserves.bind (.forM (preserves_untouched_addRoute outside) routes) fun _ => ?_
      refine .forM (fun route => ?_) oldRoutes
      split
      · exact preserves_untouched_addRoute outside ⟨route.dest, []⟩
      · exact .pure ()

/-! ### Reachable clients -/

/-- The clients that any calls lead to, whether these return or throw. -/
def Reachable (vpp : Vpp ρ) : VppClient ρ → Prop :=
  Transition.Reaches (fun client => ∃ fib, client = .init vpp fib)
    (fun client (request : Request ρ) client' =>
      client' = finalState ((request.exec vpp).run client))
    fun _ _ => True

theorem Reachable.interfaced {client : VppClient ρ} (reachable : Reachable vpp client) :
    Interfaced vpp client := by
  refine Transition.Reaches.invariant (Interfaced vpp) ?_ ?_ reachable
  · rintro _ ⟨fib, rfl⟩
    exact init_interfaced vpp fib
  · rintro before _ _ interfaced _ rfl
    have untouched : Untouched vpp (fun _ => False) before.fib.table before :=
      ⟨interfaced, fun _ isOther => isOther.elim⟩
    exact ((preserves_untouched not_false).finalState untouched).interfaced

end Runs

/-! ### The cache and VPP after a call -/

/-- The cached next hops of every preference and prefix are the paths that VPP has. -/
def Coherent (vpp : Vpp ρ) (client : VppClient ρ) : Prop :=
  ∀ preference dest,
    (∀ nextHop ∈ client.cached preference dest, vpp.knows nextHop) ∧
      Shows (client.fib.table preference dest)
        ((client.cached preference dest).filterMap (vpp.path dest))

/-- With known interfaces, the requested next hops agree on every path, and a path that is removed
for one and kept for another is added again; otherwise, the paths removed or added before the first
unknown interface end as they were. -/
def Restored (vpp : Vpp ρ) (dest : IpPrefix) (oldNextHops newNextHops : List (NextHop ρ)) : Prop :=
  let gone := (removed oldNextHops newNextHops).filterMap (vpp.path dest)
  let sent := ((added oldNextHops newNextHops).takeWhile vpp.knows).filterMap (vpp.path dest)
  if (added oldNextHops newNextHops).all vpp.knows then
    (∀ one ∈ newNextHops.filterMap (vpp.path dest), ∀ two ∈ newNextHops.filterMap (vpp.path dest),
      one.1 = two.1 → one = two) ∧
    ∀ key ∈ keys gone, key ∈ keys (newNextHops.filterMap (vpp.path dest)) →
      key ∈ keys sent
  else
    ∀ key, key ∈ keys gone ∨ key ∈ keys sent →
      find key sent.reverse =
        find key (oldNextHops.filterMap (vpp.path dest))

omit [DecidableEq ρ] in
theorem Coherent.iff_here {client client' : VppClient ρ} (coherent : Coherent vpp client)
    {preference : UInt8} {dest : IpPrefix}
    (sameCache : ∀ preference' dest', ¬(preference' = preference ∧ dest' = dest) →
      client'.cached preference' dest' = client.cached preference' dest')
    (sameTable : ∀ preference' dest', preference' ≠ preference ∨ dest' ≠ dest →
      client'.fib.table preference' dest' = client.fib.table preference' dest')
    (known : ∀ nextHop ∈ client'.cached preference dest, vpp.knows nextHop) :
    Coherent vpp client' ↔ Shows (client'.fib.table preference dest)
      ((client'.cached preference dest).filterMap (vpp.path dest)) := by
  constructor
  · intro coherent'
    exact (coherent' preference dest).2
  · intro here preference' dest'
    by_cases same : preference' = preference ∧ dest' = dest
    · obtain ⟨rfl, rfl⟩ := same
      exact ⟨known, here⟩
    · rw [sameCache preference' dest' same,
        sameTable preference' dest' (Decidable.not_and_iff_or_not.mp same)]
      exact coherent preference' dest'

theorem coherent_addRoute_iff {client : VppClient ρ} (interfaced : Interfaced vpp client)
    (coherent : Coherent vpp client) (preference : UInt8) (route : UnicastRoute ρ) :
    Coherent vpp (finalState ((addRoute vpp preference route).run client)) ↔
      Restored vpp route.dest (client.cached preference route.dest) route.nextHops := by
  obtain ⟨known, shows⟩ := coherent preference route.dest
  have removable :
      (removed (client.cached preference route.dest) route.nextHops).all vpp.knows = true := by
    rw [all_eq_true]
    intro nextHop isRemoved
    exact known nextHop (mem_removed.mp isRemoved).1
  have outcome := run_addRoute interfaced preference route
  rw [Restored]
  by_cases addable : (added (client.cached preference route.dest) route.nextHops).all vpp.knows
  · rw [if_pos ⟨removable, addable⟩] at outcome
    obtain ⟨client', ran, routed⟩ := outcome
    rw [ran, if_pos addable, takeWhile_eq_self_iff.mpr (all_eq_true.mp addable),
      ← shows.reconciled_iff, ← routed.here]
    have cachedHere : client'.cached preference route.dest = route.nextHops := by
      rw [routed.cached, if_pos ⟨rfl, rfl⟩]
    rw [finalState, coherent.iff_here (fun _ _ other => by
      rw [routed.cached, if_neg other]) routed.elsewhere, cachedHere]
    rw [cachedHere]
    intro nextHop isNew
    rcases routed.known nextHop isNew with isOld | isKnown
    · exact known nextHop isOld
    · exact isKnown
  · rw [if_neg fun both => addable both.2, Vpp.partly, if_pos removable] at outcome
    obtain ⟨_, client', thrown, changed⟩ := outcome
    have sameCache : ∀ preference' dest',
        client'.cached preference' dest' = client.cached preference' dest' := by
      intro preference' dest'
      rw [VppClient.cached, changed.unicastRoutes, VppClient.cached]
    rw [thrown, if_neg addable, ← shows.unchanged_iff, ← changed.here]
    rw [finalState, coherent.iff_here (fun preference' dest' _ => sameCache preference' dest')
      changed.elsewhere, sameCache]
    rw [sameCache]
    exact known

/-- Exactly when a call leaves the cached next hops equal to VPP's paths. -/
theorem cache_equals_paths_after_call [Inhabited ρ] {client : VppClient ρ}
    (reachable : Reachable vpp client) (coherent : Coherent vpp client) (preference : UInt8) :
    (∀ route : UnicastRoute ρ,
      Coherent vpp (finalState ((addRoute vpp preference route).run client)) ↔
        Restored vpp route.dest (client.cached preference route.dest) route.nextHops) ∧
    ∀ dest, Coherent vpp (finalState ((deleteRoute vpp preference dest).run client)) := by
  constructor
  · exact coherent_addRoute_iff reachable.interfaced coherent preference
  · intro dest
    apply (coherent_addRoute_iff reachable.interfaced coherent preference ⟨dest, []⟩).mpr
    constructor
    · intro _ member
      cases member
    · intro _ _ member
      cases member

/-! ### An interface that VPP does not know -/

/-- A node with one radio. -/
def oneRadio : Vpp Unit where
  swInterfaces := [("vpp-terra0", 1)]
  interfaceMap := []
  bridgeDomain := []
  popTap := "tap1"
  le _ _ := true

def halfKnown : UnicastRoute Unit :=
  ⟨⟨linkLocal 0 1, 64⟩,
    [⟨linkLocal 0 2, some "terra0", 1, ()⟩, ⟨linkLocal 0 3, some "terra1", 1, ()⟩]⟩

omit [DecidableEq ρ] in
theorem coherent_init (vpp : Vpp ρ) : Coherent vpp (.init vpp .empty) := by
  intro preference dest
  rw [cached_init, fib_init]
  constructor
  · intro _ member
    cases member
  · intro key weight
    constructor
    · intro isPath
      cases isPath
    · intro member
      cases member

/-- The first next hop is programmed, the second throws, and the cache knows neither. -/
theorem path_without_cached_nextHop :
    Reachable oneRadio (.init oneRadio .empty) ∧ Coherent oneRadio (.init oneRadio .empty) ∧
      ¬ Coherent oneRadio
        (finalState ((addRoute oneRadio 10 halfKnown).run (.init oneRadio .empty))) := by
  refine ⟨.start ⟨.empty, rfl⟩, coherent_init oneRadio, ?_⟩
  intro coherent
  have programmed : (finalState ((addRoute oneRadio 10 halfKnown).run
      (.init oneRadio .empty))).fib.table 10 halfKnown.dest ⟨linkLocal 0 2, 1⟩ = some 1 := by
    decide +kernel
  have cached : (finalState ((addRoute oneRadio 10 halfKnown).run
      (.init oneRadio .empty))).cached 10 halfKnown.dest = [] := by
    decide +kernel
  have shown := ((coherent 10 halfKnown.dest).2 _ _).mp programmed
  rw [cached] at shown
  cases shown

/-- Both next hops of the other route have known interfaces. -/
theorem coherent_after_known_route : Coherent oneRadio (finalState ((addRoute oneRadio 10
      ⟨⟨linkLocal 0 1, 64⟩,
        [⟨linkLocal 0 2, some "terra0", 1, ()⟩, ⟨linkLocal 0 3, none, 1, ()⟩]⟩).run
      (.init oneRadio .empty))) := by
  apply ((cache_equals_paths_after_call (.start ⟨.empty, rfl⟩) (coherent_init oneRadio) 10).1 _).mpr
  rw [Restored, if_pos (by decide +kernel)]
  decide +kernel

end Failures

section Sync

variable {ρ : Type} [DecidableEq ρ] [Inhabited ρ] {vpp : Vpp ρ}

/-- A path of VPP that neither the dump nor the lists of the sync lead to. -/
def Overlooked (vpp : Vpp ρ) (client : VppClient ρ) (preference : UInt8)
    (routes : List (UnicastRoute ρ)) (dest : IpPrefix) (key : PathKey) : Prop :=
  client.fib.table preference dest key ≠ none ∧
    ∀ nextHops ∈ (client.refreshed vpp preference).cached preference dest :: listsFor dest routes,
      key ∉ AssocList.keys (nextHops.filterMap (vpp.path dest))

/-- What a sync needs at a destination.  Nothing, if it is listed once and with next hops. -/
structure Swept (vpp : Vpp ρ) (client : VppClient ρ) (preference : UInt8)
    (routes : List (UnicastRoute ρ)) (dest : IpPrefix) : Prop where
  unwanted : (∀ nextHops ∈ listsFor dest routes, nextHops = []) →
    ∀ key, ¬ Overlooked vpp client preference routes dest key
  /-- The last list takes back the next hops of an earlier one. -/
  withdrawn : (∃ nextHops ∈ listsFor dest routes, nextHops ≠ []) →
    latest [] (listsFor dest routes) = [] → ∃ key, Overlooked vpp client preference routes dest key
  /-- A path is left when each list has replaced the one before. -/
  replaced : latest [] (listsFor dest routes) ≠ [] → (listsFor dest routes).length ≠ 1 →
    ∃ key, client.fib.table preference dest key ≠ none ∧
        Stays (vpp.path dest) key ((client.refreshed vpp preference).cached preference dest)
          (listsFor dest routes) ∨
      Enters (vpp.path dest) key ((client.refreshed vpp preference).cached preference dest)
        (listsFor dest routes)

variable {dest : IpPrefix} {routes : List (UnicastRoute ρ)}

omit [DecidableEq ρ] [Inhabited ρ] in
theorem exists_route_iff : (∃ route ∈ routes, route.dest = dest ∧ route.nextHops ≠ []) ↔
      ∃ nextHops ∈ listsFor dest routes, nextHops ≠ [] := by
  constructor
  · rintro ⟨route, isRoute, rfl, nonempty⟩
    exact ⟨route.nextHops, mem_listsFor.mpr isRoute, nonempty⟩
  · rintro ⟨nextHops, isList, nonempty⟩
    exact ⟨⟨dest, nextHops⟩, mem_listsFor.mp isList, rfl, nonempty⟩

variable {client : VppClient ρ} {preference : UInt8}

omit [DecidableEq ρ] in
theorem listsFor_stale_of_listed (listed : listsFor dest routes ≠ []) :
    listsFor dest (client.stale vpp preference routes) = [] := by
  rw [eq_nil_iff_forall_not_mem]
  intro _ isList
  exact listed (listsFor_eq_nil.mpr (mem_stale.mp (mem_listsFor.mp isList)).2.1)

/-- A nonempty list leaves a path: one that it adds, or one that it keeps. -/
theorem exists_path_of_nonempty {nextHops : List (NextHop ρ)} (nonempty : nextHops ≠ [])
    (known : ∀ nextHop ∈ nextHops,
      nextHop ∈ (client.refreshed vpp preference).cached preference dest ∨ vpp.knows nextHop) :
    ∃ key, reconciled (vpp.path dest) ((client.refreshed vpp preference).cached preference dest)
      nextHops (client.fib.table preference dest) key ≠ none := by
  obtain ⟨nextHop, isNew⟩ := exists_mem_of_ne_nil nextHops nonempty
  by_cases isOld : nextHop ∈ (client.refreshed vpp preference).cached preference dest
  · rw [cached_refreshed] at isOld ⊢
    split at isOld
    · next isIpv6 =>
      rw [if_pos isIpv6]
      have sameLength : ((client.fib.pathsOf preference dest).map Prod.fst).length =
          (client.dumped vpp preference dest).length := by
        rw [VppClient.dumped, length_mergeSort, length_map, length_map]
      refine exists_reconciled_ne_none Fib.nodup_pathKeys sameLength ?_ isOld isNew
      intro _ isKey
      obtain ⟨_, isPath, rfl⟩ := mem_map.mp isKey
      rw [Fib.mem_pathsOf.mp isPath]
      exact Option.some_ne_none _
    · cases isOld
  · have isKnown := (known nextHop isNew).resolve_left isOld
    rw [← path_isSome vpp dest, Option.isSome_iff_exists] at isKnown
    obtain ⟨⟨key, weight⟩, isPath⟩ := isKnown
    refine ⟨key, reconciled_ne_none.mpr (.inl (mem_keys_filterMap.mpr ?_))⟩
    exact ⟨nextHop, mem_added.mpr ⟨isNew, isOld⟩, weight, isPath⟩

/-- Where no next hops are listed last, the paths that are left are those overlooked. -/
theorem left_iff_overlooked (last : latest [] (listsFor dest routes) = []) (key : PathKey) :
    settle (vpp.path dest) ((client.refreshed vpp preference).cached preference dest)
        (listsFor dest (routes ++ client.stale vpp preference routes))
        (client.fib.table preference dest) key ≠ none ↔
      Overlooked vpp client preference routes dest key := by
  have synced := latest_synced vpp client preference routes dest
  rw [← cached_refreshed, last] at synced
  rw [settle_ne_none_of_notMem (by rw [synced]; exact not_mem_nil), Overlooked]
  refine and_congr_right fun _ => ⟨fun absent nextHops isList => absent nextHops ?_, ?_⟩
  · rw [listsFor_append]
    exact cons_subset_cons _ (subset_append_left _ _) isList
  · intro absent nextHops isList
    rw [listsFor_append, ← cons_append, mem_append] at isList
    rcases isList with listed | isStale
    · exact absent nextHops listed
    · rw [(mem_stale.mp (mem_listsFor.mp isStale)).1]
      exact not_mem_nil

theorem synced_at_iff {client client' : VppClient ρ} (interfaced : Interfaced vpp client)
    (run : (syncRoutes vpp preference routes).run client = .ok () client') (dest : IpPrefix) :
    ((∃ key, client'.fib.table preference dest key ≠ none) ↔
      ∃ route ∈ routes, route.dest = dest ∧ route.nextHops ≠ []) ↔
      Swept vpp client preference routes dest := by
  have settled := syncRoutes_ok interfaced run
  have table := settled.table dest
  have known := settled.known dest
  change client'.fib.table preference dest = settle _ _ _ (client.fib.table preference dest) at table
  rw [exists_route_iff, table]
  by_cases last : latest [] (listsFor dest routes) = []
  · simp only [left_iff_overlooked last]
    constructor
    · intro synced
      refine ⟨?_, fun listed _ => synced.mpr listed, fun kept => absurd last kept⟩
      intro empty key overlooked
      obtain ⟨nextHops, isList, nonempty⟩ := synced.mp ⟨key, overlooked⟩
      exact nonempty (empty nextHops isList)
    · intro swept
      refine ⟨?_, fun listed => swept.withdrawn listed last⟩
      rintro ⟨key, overlooked⟩
      by_contra unlisted
      simp only [not_exists, not_and, not_not] at unlisted
      exact swept.unwanted unlisted key overlooked
  · have isLast : latest [] (listsFor dest routes) ∈ listsFor dest routes := by
      cases isLists : (listsFor dest routes).getLast? with
      | none =>
        rw [latest, isLists] at last
        exact absurd rfl last
      | some _ =>
        rw [latest, isLists]
        exact mem_of_getLast? isLists
    have listed : ∃ nextHops ∈ listsFor dest routes, nextHops ≠ [] := ⟨_, isLast, last⟩
    rw [listsFor_append, listsFor_stale_of_listed (ne_nil_of_mem isLast), append_nil] at known ⊢
    rw [iff_true_right listed]
    by_cases once : (listsFor dest routes).length = 1
    · obtain ⟨nextHops, isLists⟩ := length_eq_one_iff.mp once
      have nonempty : nextHops ≠ [] := by
        rwa [isLists] at last
      have left := exists_path_of_nonempty nonempty (known nextHops (isLists ▸ mem_cons_self))
      refine iff_of_true (isLists ▸ left) ⟨fun empty => ?_, fun _ gone => ?_, fun _ repeated => ?_⟩
      · exact absurd (empty _ isLast) last
      · exact absurd gone last
      · exact absurd once repeated
    · simp only [settle_ne_none]
      constructor
      · intro left
        refine ⟨fun empty => ?_, fun _ gone => absurd gone last, fun _ _ => left⟩
        exact absurd (empty _ isLast) last
      · intro swept
        exact swept.replaced last once

/-- Exactly when a completed sync leaves paths at the destinations listed with next hops only. -/
theorem synced_destinations_iff {client client' : VppClient ρ} (reachable : Reachable vpp client)
    (preference : UInt8) (routes : List (UnicastRoute ρ))
    (run : (syncRoutes vpp preference routes).run client = .ok () client') :
    (∀ dest, (∃ key, client'.fib.table preference dest key ≠ none) ↔
      ∃ route ∈ routes, route.dest = dest ∧ route.nextHops ≠ []) ↔
      ∀ dest, Swept vpp client preference routes dest :=
  forall_congr' (synced_at_iff reachable.interfaced run)

end Sync

/-! ### A stale IPv4 route -/

def ipv4Dest : IpPrefix := ⟨[10, 0, 0, 0], 8⟩

def ipv4Route : UnicastRoute Unit := ⟨ipv4Dest, [⟨[10, 0, 0, 1], some "terra0", 1, ()⟩]⟩

/-- The dump shows no IPv4 routes, so that the sync leaves the path alone. -/
theorem sync_keeps_ipv4_path :
    returns ((do addRoute oneRadio 10 ipv4Route; syncRoutes oneRadio 10 []).run
      (.init oneRadio .empty)) = true ∧
    ∀ client', (do addRoute oneRadio 10 ipv4Route; syncRoutes oneRadio 10 []).run
        (.init oneRadio .empty) = .ok () client' →
      client'.fib.table 10 ipv4Dest ⟨[10, 0, 0, 1], 1⟩ = some 1 := by
  decide +kernel

def ipv6Route : UnicastRoute Unit :=
  ⟨⟨linkLocal 0 1, 64⟩, [⟨linkLocal 0 2, some "terra0", 1, ()⟩]⟩

/-- A path that is left of an earlier run. -/
def staleFib : Fib := Fib.empty.add ipv6Route.dest 10 ⟨linkLocal 0 2, 1⟩ 1

/-- The IPv4 route takes the place of the stale one. -/
theorem synced_ipv4_route : (∃ key, staleFib.table 10 ipv6Route.dest key ≠ none) ∧
    ∃ client', (syncRoutes oneRadio 10 [ipv4Route]).run (.init oneRadio staleFib) =
        .ok () client' ∧
      ∀ dest, (∃ key, client'.fib.table 10 dest key ≠ none) ↔ dest = ipv4Dest := by
  have ran : returns ((syncRoutes oneRadio 10 [ipv4Route]).run (.init oneRadio staleFib)) = true := by
    decide +kernel
  obtain ⟨_, client', run⟩ := exists_of_returns ran
  refine ⟨⟨⟨linkLocal 0 2, 1⟩, by decide +kernel⟩, client', run, fun dest => ?_⟩
  have synced := (synced_destinations_iff (.start ⟨staleFib, rfl⟩) 10 [ipv4Route] run).mpr ?_
  · rw [synced dest]
    simp [ipv4Route, eq_comm]
  · intro dest
    by_cases same : ipv4Route.dest = dest
    · subst same
      refine ⟨fun empty => absurd (empty _ mem_cons_self) (by decide), fun _ gone => ?_, ?_⟩
      · exact absurd gone (by decide)
      · exact fun _ repeated => absurd rfl repeated
    · have unlisted : listsFor dest [ipv4Route] = [] := by
        rw [listsFor_cons, if_neg same]
        rfl
      refine ⟨fun _ key overlooked => ?_, fun listed => ?_, fun kept => ?_⟩
      · -- the only path is the one that the dump leads to
        obtain ⟨isPath, unreached⟩ := overlooked
        rw [fib_init, Fib.table, AssocList.find_ne_none_iff] at isPath
        have here : (dest, (10 : UInt8), key) = (ipv6Route.dest, 10, ⟨linkLocal 0 2, 1⟩) :=
          mem_singleton.mp isPath
        cases here
        exact unreached _ mem_cons_self (by decide +kernel)
      · simp [unlisted] at listed
      · exact absurd (by rw [unlisted]; rfl) kept

open AssocList

/-! ### The handler -/

inductive HandlerError where
  | invalidArgument (what : String)
  | runtimeError (what : String)
  /-- An iterator at the end of a map is dereferenced. -/
  | undefinedBehavior
deriving DecidableEq

/-- `786` is Open/R. -/
def clientIdToPreference : List (Int × UInt8) := [(786, 10)]

def kInvalidClientError : String := "Invalid clientId; Use value between [0, 255]"

def toPreference (clientId : Int) : Except HandlerError (Option UInt8) :=
  match find clientId clientIdToPreference with
  | some preference => .ok (some preference)
  | none =>
    if 0 ≤ clientId ∧ clientId ≤ 255 then .ok (some (UInt8.ofInt clientId))
    -- The source returns `it->second` here, with `it` at the end of the map.
    else .error .undefinedBehavior

inductive FibRequest (ρ : Type) where
  | addUnicastRoutes (routes : List (UnicastRoute ρ))
  | deleteUnicastRoutes (prefixes : List IpPrefix)
  | syncFib (routes : List (UnicastRoute ρ))
  | getRouteTableByClient

abbrev HandlerM (ρ : Type) : Type → Type := EStateM HandlerError (VppClient ρ)

section Handler

variable {ρ : Type}

/-- What the client throws is caught and handed to the caller. -/
def setException {α : Type} (call : ClientM ρ α) : HandlerM ρ α := fun client =>
  match call.run client with
  | .ok a client' => .ok a client'
  | .error what client' => .error (.runtimeError what) client'

variable [DecidableEq ρ] [Inhabited ρ]

/-- The part of a request that runs in the event loop.  Routes are only returned by a query. -/
def FibRequest.exec (vpp : Vpp ρ) (preference : UInt8) :
    FibRequest ρ → ClientM ρ (List (UnicastRoute ρ))
  | addUnicastRoutes routes => do
    forM routes (addRoute vpp preference)
    return []
  | deleteUnicastRoutes prefixes => do
    forM prefixes (deleteRoute vpp preference)
    return []
  | syncFib routes => do
    syncRoutes vpp preference routes
    return []
  | getRouteTableByClient => getRoutes vpp preference

def handle (vpp : Vpp ρ) (clientId : Int) (request : FibRequest ρ) :
    HandlerM ρ (List (UnicastRoute ρ)) := do
  match ← check fun _ => toPreference clientId with
  | none => throw (.invalidArgument kInvalidClientError)
  | some preference => setException (request.exec vpp preference)

end Handler

/-! ### Preferences of clients -/

def Accepted (clientId : Int) : Prop := clientId = 786 ∨ 0 ≤ clientId ∧ clientId ≤ 255

def Belongs (clientId : Int) (preference : UInt8) : Prop :=
  toPreference clientId = .ok (some preference)

variable {clientId : Int}

theorem toPreference_of_range (lower : 0 ≤ clientId) (upper : clientId ≤ 255) :
    toPreference clientId = .ok (some (UInt8.ofInt clientId)) := by
  have absent : find clientId clientIdToPreference = none := by
    rw [clientIdToPreference, find, if_neg (by omega)]
    rfl
  rw [toPreference, absent]
  exact if_pos ⟨lower, upper⟩

theorem toPreference_of_not_accepted (refused : ¬ Accepted clientId) :
    toPreference clientId = .error .undefinedBehavior := by
  obtain ⟨notOpenr, outside⟩ := not_or.mp refused
  have absent : find clientId clientIdToPreference = none := by
    rw [clientIdToPreference, find, if_neg (Ne.symm notOpenr)]
    rfl
  rw [toPreference, absent]
  exact if_neg outside

theorem Accepted.belongs (accepted : Accepted clientId) :
    ∃ preference, Belongs clientId preference := by
  rcases accepted with rfl | ⟨lower, upper⟩
  · exact ⟨10, rfl⟩
  · exact ⟨_, toPreference_of_range lower upper⟩

theorem Belongs.cases {preference : UInt8} (belongs : Belongs clientId preference) :
    clientId = 786 ∧ preference = 10 ∨
      0 ≤ clientId ∧ clientId ≤ 255 ∧ preference.toNat = clientId.toNat := by
  by_cases accepted : Accepted clientId
  · rcases accepted with rfl | ⟨lower, upper⟩
    · cases belongs
      exact .inl ⟨rfl, rfl⟩
    · rw [Belongs, toPreference_of_range lower upper] at belongs
      cases belongs
      refine .inr ⟨lower, upper, ?_⟩
      rw [UInt8.ofInt, UInt8.toNat_ofNat']
      omega
  · rw [Belongs, toPreference_of_not_accepted accepted] at belongs
    cases belongs

/-- Two clients share a preference only if they are Open/R and client 10. -/
theorem Belongs.shared {clientId other : Int} {preference : UInt8}
    (belongs : Belongs clientId preference) (also : Belongs other preference)
    (different : other ≠ clientId) :
    clientId = 10 ∧ other = 786 ∨ clientId = 786 ∧ other = 10 := by
  rcases belongs.cases with ⟨_, isTen⟩ | ⟨_, _, same⟩
  · rcases also.cases with ⟨_, _⟩ | ⟨_, _, same'⟩
    · omega
    · rw [isTen] at same'
      change 10 = other.toNat at same'
      omega
  · rcases also.cases with ⟨_, isTen⟩ | ⟨_, _, _⟩
    · rw [isTen] at same
      change 10 = clientId.toNat at same
      omega
    · omega

/-! ### Isolation -/

section Isolation

variable {ρ : Type} [DecidableEq ρ] [Inhabited ρ] {vpp : Vpp ρ}

/-- A request leaves the routes of the other clients alone, and is refused where it has to be. -/
structure Isolated (vpp : Vpp ρ) (clients : Set Int) (client : VppClient ρ) (clientId : Int)
    (request : FibRequest ρ) : Prop where
  /-- A request of an unknown client is rejected and VPP is not touched. -/
  rejected : ¬ Accepted clientId →
    (handle vpp clientId request).run client =
      .error (.invalidArgument kInvalidClientError) client
  /-- No path of another client is added, removed or changed. -/
  untouched : Accepted clientId → ∀ other ∈ clients, other ≠ clientId →
    ∀ preference, Belongs other preference → ∀ dest,
      (finalState ((handle vpp clientId request).run client)).fib.table preference dest =
        client.fib.table preference dest
  /-- What is reported is read from paths that are not another client's. -/
  unreported : Accepted clientId → ∀ other ∈ clients, other ≠ clientId →
    ∀ routes client', (handle vpp clientId request).run client = .ok routes client' →
      ∀ route ∈ routes, ∀ nextHop ∈ route.nextHops,
        ∃ preference, ¬ Belongs other preference ∧
          ∃ path ∈ client.fib.pathsOf preference route.dest, client.hopOf path = nextHop

variable {preference : UInt8}

theorem run_handle (belongs : Belongs clientId preference) (request : FibRequest ρ)
    (client : VppClient ρ) :
    (handle vpp clientId request).run client =
      (setException (request.exec vpp preference)).run client := by
  apply run_check_bind (a := some preference)
  exact belongs

theorem run_handle_not_accepted (refused : ¬ Accepted clientId) (request : FibRequest ρ)
    (client : VppClient ρ) :
    (handle vpp clientId request).run client = .error .undefinedBehavior client := by
  have undefined := toPreference_of_not_accepted refused
  exact check_bind_eq_error.mpr (.inl ⟨undefined, rfl⟩)

omit [DecidableEq ρ] [Inhabited ρ] in
theorem setException_eq_ok {α : Type} {call : ClientM ρ α} {client client' : VppClient ρ} {a : α} :
    (setException call).run client = .ok a client' ↔ call.run client = .ok a client' := by
  rw [EStateM.run, setException]
  cases call.run client with
  | ok => simp only [EStateM.Result.ok.injEq]
  | error => exact iff_of_false nofun nofun

omit [DecidableEq ρ] [Inhabited ρ] in
theorem preserves_setException {α : Type} {property : VppClient ρ → Prop} {call : ClientM ρ α}
    (preserves : Preserves property call) : Preserves property (setException call) := by
  constructor
  · intro _ _ a holds run
    exact preserves.ok holds (setException_eq_ok.mp run)
  · intro client _ e holds run
    rw [EStateM.run, setException] at run
    cases ran : call.run client with
    | ok =>
      rw [ran] at run
      cases run
    | error =>
      rw [ran] at run
      cases run
      exact preserves.error holds ran

theorem FibRequest.preserves_untouched {others : UInt8 → Prop}
    {tables : UInt8 → IpPrefix → Table PathKey UInt8} (outside : ¬ others preference)
    (request : FibRequest ρ) :
    Preserves (Untouched vpp others tables) (request.exec vpp preference) := by
  cases request with
  | addUnicastRoutes routes =>
    exact Preserves.bind (.forM (preserves_untouched_addRoute outside) routes) fun _ => .pure []
  | deleteUnicastRoutes prefixes =>
    exact Preserves.bind
      (.forM (fun dest => preserves_untouched_addRoute outside ⟨dest, []⟩) prefixes)
      fun _ => .pure []
  | syncFib routes =>
    have sync : Preserves (Untouched vpp others tables)
        ((Request.syncRoutes preference routes).exec vpp) := VppFib.preserves_untouched outside
    exact sync.bind fun _ => .pure []
  | getRouteTableByClient => exact preserves_untouched_getRoutes preference

variable {client : VppClient ρ}

theorem untouched_handle (interfaced : Interfaced vpp client)
    (belongs : Belongs clientId preference) (request : FibRequest ρ) :
    Untouched vpp (· ≠ preference) client.fib.table
      (finalState ((handle vpp clientId request).run client)) := by
  rw [run_handle belongs]
  have preserves : Preserves (Untouched vpp (· ≠ preference) client.fib.table)
      (setException (request.exec vpp preference)) :=
    preserves_setException (request.preserves_untouched (not_not.mpr rfl))
  exact preserves.finalState ⟨interfaced, fun _ _ _ => rfl⟩

/-- Only a query returns routes, and they are read from the paths of the client's preference. -/
theorem reported_of_handle {client client' : VppClient ρ} (interfaced : Interfaced vpp client)
    (belongs : Belongs clientId preference) {request : FibRequest ρ}
    {routes : List (UnicastRoute ρ)}
    (run : (handle vpp clientId request).run client = .ok routes client') {route : UnicastRoute ρ}
    (isRoute : route ∈ routes) {nextHop : NextHop ρ} (isNextHop : nextHop ∈ route.nextHops) :
    ∃ path ∈ client.fib.pathsOf preference route.dest, client.hopOf path = nextHop := by
  rw [run_handle belongs, setException_eq_ok] at run
  cases request with
  | addUnicastRoutes list | deleteUnicastRoutes prefixes | syncFib list =>
    obtain ⟨_, _, _, returned⟩ := bind_eq_ok.mp run
    cases returned
    cases isRoute
  | getRouteTableByClient =>
    rcases run_getRoutes interfaced preference with dumped | ⟨_, _, thrown, _⟩
    · rw [FibRequest.exec, dumped] at run
      cases run
      rw [(mem_reported.mp isRoute).2.1] at isNextHop
      exact mem_dumped.mp isNextHop
    · rw [FibRequest.exec, thrown] at run
      cases run

/-- The states that requests of these clients lead to, in any interleaving. -/
def Served (vpp : Vpp ρ) (clients : Set Int) : VppClient ρ → Prop :=
  Transition.Reaches (fun client => ∃ fib, client = .init vpp fib)
    (fun client (call : Int × FibRequest ρ) client' =>
      client' = finalState ((handle vpp call.1 call.2).run client))
    fun _ call => call.1 ∈ clients

theorem Served.interfaced {clients : Set Int} (served : Served vpp clients client) :
    Interfaced vpp client := by
  refine Transition.Reaches.invariant (Interfaced vpp) ?_ ?_ served
  · rintro _ ⟨fib, rfl⟩
    exact init_interfaced vpp fib
  · rintro _ ⟨clientId, request⟩ _ interfaced _ rfl
    by_cases accepted : Accepted clientId
    · obtain ⟨_, belongs⟩ := accepted.belongs
      exact (untouched_handle interfaced belongs request).interfaced
    · rw [run_handle_not_accepted accepted]
      exact interfaced

theorem openr_adds_path (vpp : Vpp ρ) : ∃ route : UnicastRoute ρ,
      (finalState ((handle vpp 786 (.addUnicastRoutes [route])).run (.init vpp .empty))).fib.table
        10 route.dest ≠ (VppClient.init vpp .empty).fib.table 10 route.dest := by
  refine ⟨⟨⟨[], 0⟩, [⟨[], none, 0, default⟩]⟩, ?_⟩
  have outcome := run_addRoute (init_interfaced vpp .empty) 10 ⟨⟨[], 0⟩, [⟨[], none, 0, default⟩]⟩
  rw [cached_init] at outcome
  obtain ⟨client', ran, routed⟩ := outcome
  have handled : (handle vpp 786 (.addUnicastRoutes [⟨⟨[], 0⟩, [⟨[], none, 0, default⟩]⟩])).run
      (.init vpp .empty) = .ok [] client' := by
    refine setException_eq_ok.mpr (bind_eq_ok.mpr ⟨(), client', ?_, rfl⟩)
    exact bind_eq_ok.mpr ⟨(), client', ran, rfl⟩
  rw [handled, finalState, routed.here, cached_init]
  intro same
  have atKey := congrFun same ⟨vpp.nhAddress ⟨[], 0⟩ ⟨[], none, 0, default⟩, noInterface⟩
  rw [fib_init] at atKey
  cases atKey

/-- Exactly which clients can share the agent: accepted ones, but not both Open/R and client 10. -/
theorem clients_isolated_iff (vpp : Vpp ρ) (clients : Set Int) :
    (∀ client, Served vpp clients client → ∀ clientId ∈ clients, ∀ request,
      Isolated vpp clients client clientId request) ↔
      (∀ clientId ∈ clients, Accepted clientId) ∧ ¬(10 ∈ clients ∧ 786 ∈ clients) := by
  constructor
  · intro isolated
    have start : Served vpp clients (.init vpp .empty) := .start ⟨.empty, rfl⟩
    constructor
    · intro clientId isClient
      by_contra refused
      have rejected := (isolated _ start clientId isClient .getRouteTableByClient).rejected refused
      rw [run_handle_not_accepted refused] at rejected
      cases rejected
    · rintro ⟨ten, openr⟩
      obtain ⟨route, changed⟩ := openr_adds_path vpp
      have untouched := (isolated _ start 786 openr (.addUnicastRoutes [route])).untouched (.inl rfl)
      exact changed (untouched 10 ten (by decide) 10 rfl route.dest)
  · rintro ⟨accepted, notBoth⟩ _ served clientId isClient request
    have interfaced := served.interfaced
    obtain ⟨preference, belongs⟩ := (accepted clientId isClient).belongs
    have distinct : ∀ other ∈ clients, other ≠ clientId → ¬ Belongs other preference := by
      intro _ isOther different also
      rcases belongs.shared also different with ⟨rfl, rfl⟩ | ⟨rfl, rfl⟩
      · exact notBoth ⟨isClient, isOther⟩
      · exact notBoth ⟨isOther, isClient⟩
    refine ⟨fun refused => absurd (accepted clientId isClient) refused, ?_, ?_⟩
    · intro _ other isOther different preference' theirs dest
      refine (untouched_handle interfaced belongs request).same preference' ?_ dest
      intro same
      exact distinct other isOther different (same ▸ theirs)
    · intro _ other isOther different _ _ run _ isRoute _ isNextHop
      exact ⟨preference, distinct other isOther different,
        reported_of_handle interfaced belongs run isRoute isNextHop⟩

end Isolation

def openrOnly : VppClient Unit :=
  finalState ((handle oneRadio 786 (.addUnicastRoutes [ipv6Route])).run (.init oneRadio .empty))

/-- A sync of client 10 removes the route of Open/R, and client 300 is not rejected. -/
theorem clients_not_isolated : openrOnly.fib.table 10 ipv6Route.dest ⟨linkLocal 0 2, 1⟩ = some 1 ∧
    (finalState ((handle oneRadio 10 (.syncFib [])).run openrOnly)).fib.table
      10 ipv6Route.dest ⟨linkLocal 0 2, 1⟩ = none ∧
    ¬ Accepted 300 ∧
    (handle oneRadio 300 .getRouteTableByClient).run openrOnly ≠
      .error (.invalidArgument kInvalidClientError) openrOnly := by
  have refused : ¬ Accepted 300 := by
    unfold Accepted
    omega
  refine ⟨by decide +kernel, by decide +kernel, refused, ?_⟩
  intro rejected
  cases rejected

end Terragraph.VppFib
