/-
Module: Terragraph.Bgp.Fibs
Purpose: The two FIBs of the BGP speaker, `PlatformBaseFib` and `OpenrPrefixMgr`.
Trusted boundary: human-reviewed embedding of `fibs.py`; the clients' calls do as documented
Main exports: PlatformBaseFib, advertised_iff_recorded
-/
import Terragraph.Lib.AssocList
import Terragraph.Lib.Transition

namespace Terragraph.Bgp

open AssocList Transition Finset Option

variable {P A : Type} [DecidableEq P] [DecidableEq A]

/-! ### Learnt prefixes -/

/-- `bgp_learnt_prefixes`, and what the FIB holds. -/
abbrev Routes (P A : Type) := List (P × Finset A)

/-- `get_current_next_hops`. -/
def nextHops (p : P) (routes : Routes P A) : Finset A := (find p routes).getD ∅

def remember (p : P) (hop : A) (routes : Routes P A) : Routes P A := upsert ∅ p (insert hop) routes

def forget (p : P) (hop : A) (routes : Routes P A) : Routes P A := upsert ∅ p (·.erase hop) routes

def forgetAll (hop : A) (routes : Routes P A) : Routes P A :=
  routes.map fun route => (route.1, route.2.erase hop)

omit [DecidableEq A] in
theorem nextHops_upsert (f : Finset A → Finset A) (p q : P) (routes : Routes P A) :
    nextHops q (upsert ∅ p f routes) =
      if p = q then f (nextHops p routes) else nextHops q routes := by
  rw [nextHops, find_upsert]
  split <;> rfl

theorem nextHops_forgetAll (hop : A) (q : P) (routes : Routes P A) :
    nextHops q (forgetAll hop routes) = (nextHops q routes).erase hop := by
  induction routes with
  | nil => exact (erase_empty hop).symm
  | cons _ _ ih =>
    simp only [nextHops, forgetAll, List.map_cons, find] at ih ⊢
    split
    · rfl
    · exact ih

/-! ### The platform FIB -/

structure PlatformBaseFib (P A : Type) where
  learnt : Routes P A := []
  fib : Routes P A := []

/-- The calls of both classes. -/
inductive Call (P A : Type) where
  | addRoute (p : P) (hop : A)
  | delRoute (p : P) (hop : A)
  | delAllRoutes (hop : A)

/-- `addUnicastRoute` of the FIB agent. -/
def addUnicastRoute (p : P) (hops : Finset A) (fib : Routes P A) : Routes P A :=
  if hops = ∅ then remove p fib else upsert ∅ p (fun _ => hops) fib

theorem nextHops_addUnicastRoute (p q : P) (hops : Finset A) (fib : Routes P A) :
    nextHops q (addUnicastRoute p hops fib) = if p = q then hops else nextHops q fib := by
  unfold addUnicastRoute
  split
  · next none =>
    rw [nextHops, find_remove, none]
    by_cases same : p = q
    · rw [if_pos same.symm, if_pos same]
      rfl
    · rw [if_neg (Ne.symm same), if_neg same]
      rfl
  · exact nextHops_upsert _ p q fib

variable {call : Call P A}

namespace PlatformBaseFib

def program (p : P) (s : PlatformBaseFib P A) : PlatformBaseFib P A :=
  { s with fib := addUnicastRoute p (nextHops p s.learnt) s.fib }

def prefixesToDel (hop : A) (fib : Routes P A) : List P :=
  (fib.filter fun route => hop ∈ route.2).map Prod.fst

/-- The calls, with what `add_route` accepts: the route passes `super().add_route` and is a default
route unless others are allowed.  A missing next hop raises a `KeyError`. -/
def exec (accepts : P → A → Bool) : Call P A → PlatformBaseFib P A → Option (PlatformBaseFib P A)
  | .addRoute p hop, s =>
    if accepts p hop then some (program p { s with learnt := remember p hop s.learnt }) else some s
  | .delRoute p hop, s =>
    match find p s.learnt with
    | none => some (program p s)
    | some hops =>
      if hop ∈ hops then some (program p { s with learnt := forget p hop s.learnt }) else none
  | .delAllRoutes hop, s =>
    if prefixesToDel hop s.fib = [] then some s
    else some ((prefixesToDel hop s.fib).foldl (fun s p => program p s)
      { s with learnt := forgetAll hop s.learnt })

/-- The routes that were accepted and not removed since. -/
def track (accepts : P → A → Bool) (routes : P → Finset A) : Call P A → P → Finset A
  | .addRoute p hop, q => if accepts p hop ∧ q = p then insert hop (routes q) else routes q
  | .delRoute p hop, q => if q = p then (routes q).erase hop else routes q
  | .delAllRoutes hop, q => (routes q).erase hop

def Follows (s : PlatformBaseFib P A) (routes : P → Finset A) : Prop :=
  ∀ p, nextHops p s.fib = nextHops p s.learnt ∧ nextHops p s.learnt = routes p

theorem foldl_program (prefixes : List P) (s : PlatformBaseFib P A) :
    (prefixes.foldl (fun s p => program p s) s).learnt = s.learnt ∧
      ∀ q, nextHops q (prefixes.foldl (fun s p => program p s) s).fib =
        if q ∈ prefixes then nextHops q s.learnt else nextHops q s.fib := by
  induction prefixes generalizing s with
  | nil => simp
  | cons p _ ih =>
    obtain ⟨learnt, fib⟩ := ih (program p s)
    refine ⟨learnt, fun q => ?_⟩
    rw [List.foldl_cons, fib, program, nextHops_addUnicastRoute]
    by_cases same : p = q
    · simp [same]
    · simp [same, Ne.symm same]

theorem notMem_of_notMem_prefixesToDel {hop : A} {fib : Routes P A} {q : P}
    (unlisted : q ∉ prefixesToDel hop fib) : hop ∉ nextHops q fib := by
  intro inside
  apply unlisted
  unfold nextHops at inside
  cases found : find q fib with
  | none => simp [found] at inside
  | some hops =>
    rw [found] at inside
    exact List.mem_map.mpr ⟨(q, hops), List.mem_filter.mpr ⟨mem_of_find found, by simpa⟩, rfl⟩

variable {s : PlatformBaseFib P A} {accepts : P → A → Bool} {s' : PlatformBaseFib P A}

theorem Follows.step {routes : P → Finset A}
    (follows : Follows s routes) (returned : exec accepts call s = some s') :
    Follows s' (track accepts routes call) := by
  intro q
  obtain ⟨same, recorded⟩ := follows q
  cases call with
  | addRoute p =>
    simp only [exec] at returned
    split at returned
    · next accepted =>
      cases returned
      simp only [program, nextHops_addUnicastRoute, remember, nextHops_upsert, track, accepted]
      by_cases here : p = q
      · subst here
        simp [recorded]
      · simp [here, Ne.symm here, same, recorded]
    · next rejected =>
      cases returned
      simp [track, rejected, same, recorded]
  | delRoute p =>
    have known : find p s.learnt = none → nextHops p s.learnt = ∅ := by
      intro unknown
      rw [nextHops, unknown]
      rfl
    simp only [exec] at returned
    split at returned
    · next unknown =>
      cases returned
      simp only [program, nextHops_addUnicastRoute, track]
      by_cases here : p = q
      · subst here
        simp [← recorded, known unknown]
      · simp [here, Ne.symm here, same, recorded]
    · split at returned
      · cases returned
        simp only [program, nextHops_addUnicastRoute, forget, nextHops_upsert, track]
        by_cases here : p = q
        · subst here
          simp [recorded]
        · simp [here, Ne.symm here, same, recorded]
      · cases returned
  | delAllRoutes hop =>
    have elsewhere : q ∉ prefixesToDel hop s.fib → hop ∉ routes q := by
      intro unlisted
      rw [← recorded, ← same]
      exact notMem_of_notMem_prefixesToDel unlisted
    simp only [exec] at returned
    split at returned
    · next nothing =>
      cases returned
      have absent := elsewhere (by rw [nothing]; exact List.not_mem_nil)
      exact ⟨same, recorded.trans (erase_eq_of_notMem absent).symm⟩
    · cases returned
      obtain ⟨learnt, fib⟩ := foldl_program (prefixesToDel hop s.fib)
        { s with learnt := forgetAll hop s.learnt }
      rw [fib, learnt, nextHops_forgetAll, recorded]
      refine ⟨?_, rfl⟩
      split
      · rfl
      · next unlisted =>
        rw [same, recorded]
        exact (erase_eq_of_notMem (elsewhere unlisted)).symm

/-- After calls that return, the FIB and the map have the next hops accepted and not removed since.
-/
theorem fib_follows_accepted_routes (accepts : P → A → Bool) (calls : List (Call P A))
    {s : PlatformBaseFib P A} (returned : replay (exec accepts) calls {} = some s) :
    Follows s (calls.foldl (track accepts) fun _ => ∅) := by
  have run : ∀ (calls : List (Call P A)) (t : PlatformBaseFib P A) routes, Follows t routes →
      replay (exec accepts) calls t = some s → Follows s (calls.foldl (track accepts) routes) := by
    intro calls
    induction calls with
    | nil =>
      intro t _ follows returned
      cases returned
      exact follows
    | cons _ _ ih =>
      intro t _ follows returned
      obtain ⟨t', taken, returned⟩ := bind_eq_some_iff.mp returned
      exact ih t' _ (follows.step taken) returned
  exact run calls {} _ (fun _ => ⟨rfl, rfl⟩) returned

/-- Two peers announce a prefix, and one of them goes away. -/
theorem fib_keeps_other_peer : ∃ s : PlatformBaseFib Nat Nat, nextHops 0 s.fib = {2} ∧
      Follows s ([.addRoute 0 1, .addRoute 0 2, .delAllRoutes 1].foldl (track fun _ _ => true)
        fun _ => ∅) :=
  ⟨_, by decide, fib_follows_accepted_routes (fun _ _ => true) _ rfl⟩

/-! ### Looking for a route -/

/-- `check_for_route`, which looks for a route with this next hop and no other. -/
def checkForRoute (p : P) (hop : A) (s : PlatformBaseFib P A) : Bool :=
  decide ((p, {hop}) ∈ s.fib)

theorem nodup_program {p : P} (nodup : (keys s.fib).Nodup) :
    (keys (program p s).fib).Nodup := by
  rw [program, addUnicastRoute]
  split
  · exact nodup_keys_remove nodup
  · exact nodup_keys_upsert nodup

theorem nodup_exec (nodup : (keys s.fib).Nodup) (returned : exec accepts call s = some s') :
    (keys s'.fib).Nodup := by
  cases call with
  | addRoute =>
    simp only [exec] at returned
    split at returned
    · cases returned
      exact nodup_program nodup
    · cases returned
      exact nodup
  | delRoute =>
    simp only [exec] at returned
    split at returned
    · cases returned
      exact nodup_program nodup
    · split at returned
      · cases returned
        exact nodup_program nodup
      · cases returned
  | delAllRoutes =>
    simp only [exec] at returned
    split at returned
    · cases returned
      exact nodup
    · cases returned
      exact List.foldlRecOn (motive := fun t : PlatformBaseFib P A => (keys t.fib).Nodup) _ _ nodup
        fun _ kept _ _ => nodup_program kept

theorem checkForRoute_eq_true_iff {p : P} {hop : A} (nodup : (keys s.fib).Nodup) :
    s.checkForRoute p hop = true ↔ nextHops p s.fib = {hop} := by
  rw [checkForRoute, decide_eq_true_iff, ← find_eq_some_iff nodup, nextHops]
  cases find p s.fib with
  | none => simp
  | some => simp

/-- In a FIB that calls have made, the check is right about a next hop that is not one of several.
-/
theorem checkForRoute_iff_programmed (accepts : P → A → Bool) (calls : List (Call P A))
    {s : PlatformBaseFib P A} (returned : replay (exec accepts) calls {} = some s) (p : P)
    (hop : A) :
    (s.checkForRoute p hop = true ↔ hop ∈ nextHops p s.fib) ↔
      (hop ∈ nextHops p s.fib → (nextHops p s.fib).card = 1) := by
  have nodup : (keys s.fib).Nodup := by
    refine ((Reaches.start rfl).replay (permitted_of_unrestricted _ _ _) returned).invariant
      (fun t : PlatformBaseFib P A => (keys t.fib).Nodup) ?_ ?_
    · rintro _ rfl
      exact List.nodup_nil
    · exact fun _ _ _ kept _ taken => nodup_exec kept taken
  rw [checkForRoute_eq_true_iff nodup, card_eq_one]
  constructor
  · exact fun right listed => ⟨hop, right.mpr listed⟩
  · intro single
    refine ⟨fun same => same ▸ mem_singleton_self hop, fun listed => ?_⟩
    obtain ⟨_, same⟩ := single listed
    rw [same, mem_singleton] at listed
    rw [same, listed]

/-- The only next hop of a prefix is found. -/
theorem checkForRoute_finds_only_hop : ∃ s : PlatformBaseFib Nat Nat,
      (s.checkForRoute 0 1 = true ↔ 1 ∈ nextHops 0 s.fib) ∧ 1 ∈ nextHops 0 s.fib := by
  refine ⟨program 0 { learnt := [(0, {1})] }, ?_, by decide⟩
  exact (checkForRoute_iff_programmed (fun _ _ => true) [.addRoute 0 1] rfl 0 1).mpr
    fun _ => by decide

/-- Neither of two next hops of a prefix is found. -/
theorem checkForRoute_misses_ecmp : ∃ s : PlatformBaseFib Nat Nat,
      replay (exec fun _ _ => true) [.addRoute 0 1, .addRoute 0 2] {} = some s ∧
        1 ∈ nextHops 0 s.fib ∧ s.checkForRoute 0 1 = false :=
  ⟨_, rfl, by decide, by decide⟩

end PlatformBaseFib

/-! ### Redistribution into Open/R -/

structure OpenrPrefixMgr (P A : Type) where
  learnt : Routes P A := []
  /-- The prefixes that Open/R advertises for this client. -/
  advertised : Finset P := ∅

namespace OpenrPrefixMgr

section Exec

variable (took : P → Bool)

/-- `advertisePrefixes`: an exception of Thrift is logged and ends in a normal return. -/
def advertise (p : P) (advertised : Finset P) : Finset P :=
  if took p then insert p advertised else advertised

/-- `withdrawPrefixes`, likewise. -/
def withdraw (p : P) (advertised : Finset P) : Finset P :=
  if took p then advertised.erase p else advertised

def addRoute (accepts : P → A → Bool) (p : P) (hop : A) (s : OpenrPrefixMgr P A) :
    Bool × OpenrPrefixMgr P A :=
  if accepts p hop then
    (true, { learnt := remember p hop s.learnt, advertised := advertise took p s.advertised })
  else (false, s)

/-- `del_route`; an unknown prefix raises a `KeyError`. -/
def delRoute (p : P) (hop : A) (s : OpenrPrefixMgr P A) : Option (Bool × OpenrPrefixMgr P A) :=
  match find p s.learnt with
  | none => none
  | some hops =>
    if hop ∉ hops then some (false, s)
    else if 1 < hops.card then some (true, { s with learnt := forget p hop s.learnt })
    else some (true,
      { learnt := forget p hop s.learnt, advertised := withdraw took p s.advertised })

/-- The body of the loop of `del_all_routes`. -/
def delEach (hop : A) (r : Bool × OpenrPrefixMgr P A) (p : P) :
    Option (Bool × OpenrPrefixMgr P A) :=
  if hop ∈ nextHops p r.2.learnt then
    (delRoute took p hop r.2).map fun deleted => (r.1 || deleted.1, deleted.2)
  else some r

def exec (accepts : P → A → Bool) : Call P A → OpenrPrefixMgr P A →
    Option (Bool × OpenrPrefixMgr P A)
  | .addRoute p hop, s => some (addRoute took accepts p hop s)
  | .delRoute p hop, s => delRoute took p hop s
  | .delAllRoutes hop, s => (keys s.learnt).foldlM (delEach took hop) (false, s)

end Exec

def InStep (s : OpenrPrefixMgr P A) : Prop :=
  ∀ p, p ∈ s.advertised ↔ (nextHops p s.learnt).Nonempty

/-- What a call is for: the route is recorded and advertised, or gone, and with the last one the
prefix is withdrawn. -/
def TookEffect (s : OpenrPrefixMgr P A) : Call P A → Prop
  | .addRoute p hop => hop ∈ nextHops p s.learnt ∧ p ∈ s.advertised
  | .delRoute p hop => hop ∉ nextHops p s.learnt ∧ (nextHops p s.learnt = ∅ → p ∉ s.advertised)
  | .delAllRoutes _ => True

variable {took : P → Bool} {accepts : P → A → Bool} {s s' : OpenrPrefixMgr P A} {p : P} {hop : A}
  {result : Bool}

theorem InStep.addRoute (inStep : InStep s) (effective : took p = true)
    (returned : addRoute took accepts p hop s = (result, s')) :
    InStep s' ∧ (result = true → hop ∈ nextHops p s'.learnt) := by
  unfold OpenrPrefixMgr.addRoute at returned
  split at returned
  · cases returned
    refine ⟨fun q => ?_, fun _ => by simp [remember, nextHops_upsert]⟩
    simp only [remember, nextHops_upsert, advertise, effective, if_true, mem_insert, inStep q]
    by_cases here : p = q
    · simp [here]
    · simp [here, Ne.symm here]
  · cases returned
    exact ⟨inStep, nofun⟩

theorem InStep.delRoute (inStep : InStep s) (effective : took p = true)
    (returned : delRoute took p hop s = some (result, s')) :
    InStep s' ∧ (result = true → hop ∉ nextHops p s'.learnt) := by
  unfold OpenrPrefixMgr.delRoute at returned
  cases found : find p s.learnt with
  | none => simp [found] at returned
  | some hops =>
    have isHops : nextHops p s.learnt = hops := by rw [nextHops, found, getD_some]
    rw [found] at returned
    simp only at returned
    split at returned
    · cases returned
      exact ⟨inStep, fun impossible => absurd impossible Bool.false_ne_true⟩
    · next listed =>
      rw [not_not] at listed
      have gone : hop ∉ nextHops p (forget p hop s.learnt) := by
        simp [forget, nextHops_upsert]
      split at returned
      · cases returned
        refine ⟨fun q => ?_, fun _ => gone⟩
        simp only [forget, nextHops_upsert, inStep q]
        by_cases here : p = q
        · subst here
          have left : (hops.erase hop).Nonempty := by
            rw [← card_pos, card_erase_of_mem listed]
            omega
          have before : hops.Nonempty := ⟨hop, listed⟩
          simp [isHops, left, before]
        · simp [here]
      · cases returned
        refine ⟨fun q => ?_, fun _ => gone⟩
        simp only [forget, nextHops_upsert, withdraw, effective, if_true, mem_erase, inStep q]
        by_cases here : p = q
        · subst here
          have none : hops.erase hop = ∅ := by
            rw [← card_eq_zero, card_erase_of_mem listed]
            omega
          simp [isHops, none]
        · simp [here, Ne.symm here]

theorem InStep.delAll (inStep : InStep s) (effective : ∀ p, took p = true) (prefixes : List P)
    (before : Bool) (returned : prefixes.foldlM (delEach took hop) (before, s) = some (result, s')) :
    InStep s' := by
  induction prefixes generalizing before s with
  | nil =>
    cases returned
    exact inStep
  | cons p _ ih =>
    obtain ⟨⟨removed, t⟩, deleted, returned⟩ := bind_eq_some_iff.mp returned
    refine ih ?_ removed returned
    unfold delEach at deleted
    split at deleted
    · obtain ⟨⟨_, u⟩, taken, same⟩ := map_eq_some_iff.mp deleted
      cases same
      exact (inStep.delRoute (effective p) taken).1
    · cases deleted
      exact inStep

/-- One call keeps the FIBs in step, and takes effect if it says so. -/
theorem InStep.step (inStep : InStep s) (effective : ∀ p, took p = true)
    (returned : exec took accepts call s = some (result, s')) :
    InStep s' ∧ (result = true → TookEffect s' call) := by
  cases call with
  | addRoute p hop =>
    obtain ⟨kept, recorded⟩ := inStep.addRoute (effective p) (some.inj returned)
    exact ⟨kept, fun isTrue => ⟨recorded isTrue, (kept p).mpr ⟨hop, recorded isTrue⟩⟩⟩
  | delRoute p =>
    obtain ⟨kept, gone⟩ := inStep.delRoute (effective p) returned
    refine ⟨kept, fun isTrue => ⟨gone isTrue, fun none => ?_⟩⟩
    rw [kept p, none]
    exact not_nonempty_empty
  | delAllRoutes => exact ⟨inStep.delAll effective _ _ returned, fun _ => trivial⟩

/-- In every run in which all client calls take effect, a prefix is advertised after each call if
and only if a next hop is recorded for it, and calls return true only if they took effect. -/
theorem advertised_iff_recorded (accepts : P → A → Bool)
    (reached : Reaches (· = {}) (fun (s : OpenrPrefixMgr P A) (call : Call P A × (P → Bool)) s' =>
      ∃ result, exec call.2 accepts call.1 s = some (result, s'))
      (fun _ call => ∀ p, call.2 p = true) s) :
    InStep s ∧ ∀ took call result s', (∀ p, took p = true) →
      exec took accepts call s = some (result, s') → result = true → TookEffect s' call := by
  have inStep : InStep s := by
    refine reached.invariant InStep ?_ ?_
    · rintro _ rfl p
      simp [nextHops, find]
    · rintro s _ _ holds effective ⟨_, returned⟩
      exact (holds.step effective returned).1
  exact ⟨inStep, fun _ _ _ _ effective returned =>
    (inStep.step effective returned).2⟩

/-- A route that could not be advertised is recorded, and `add_route` returns true. -/
theorem recorded_but_not_advertised : ∃ s : OpenrPrefixMgr Nat Nat,
      exec (fun _ => false) (fun _ _ => true) (.addRoute 0 1) {} = some (true, s) ∧
        ¬ InStep s ∧ ¬ TookEffect s (.addRoute 0 1) := by
  refine ⟨_, rfl, fun inStep => ?_, fun effect => ?_⟩
  · exact absurd ((inStep 0).mpr ⟨1, by decide⟩) (by decide)
  · exact absurd effect.2 (by decide)

/-- A route that is accepted is recorded and advertised. -/
theorem advertised_after_addRoute :
    ∃ s : OpenrPrefixMgr Nat Nat, s.advertised = {0} ∧ InStep s := by
  refine ⟨(addRoute (fun _ => true) (fun _ _ => true) 0 1 {}).2, by decide, ?_⟩
  refine (advertised_iff_recorded (fun _ _ => true) ?_).1
  exact .step (.start rfl) (fun _ => rfl : ∀ p, (Call.addRoute 0 1, fun _ : Nat => true).2 p = true)
    ⟨true, rfl⟩

end OpenrPrefixMgr

end Terragraph.Bgp
