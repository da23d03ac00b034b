/-
Module: Terragraph.Algorithms.NetworkGolay
Purpose: `GolayHelper::assignNetworkGolay`, which assigns a golay index to every link group.
Trusted boundary: human-reviewed embedding of `GolayHelper.cpp`
Main exports: GolaysSettled, assignNetworkGolay_assigned
-/
import Terragraph.Algorithms.NetworkAssignment

namespace Terragraph

open Guarded TopologyWrapper Option AssocList List Except

/-! ### The algorithm -/

/-- What the golay indices of the two ends of a link amount to. -/
inductive LinkGolay where
  | missing
  | invalid
  | index (golay : Int)
deriving DecidableEq, Repr

/-- The golay index of a link, from both ends or from the only end that has one. -/
def linkGolay (aGolayIdx zGolayIdx : Option GolayIdx) : LinkGolay :=
  if isValidLinkGolay aGolayIdx zGolayIdx ∨
      zGolayIdx = none ∧ isValidLinkGolay aGolayIdx aGolayIdx ∨
      aGolayIdx = none ∧ isValidLinkGolay zGolayIdx zGolayIdx then
    -- the index is stored in an `int`
    .index (((aGolayIdx.or zGolayIdx).getD {}).txGolayIdx.bmod (2 ^ 32))
  else if aGolayIdx ≠ none ∨ zGolayIdx ≠ none then .invalid
  else .missing

section Collect

variable (w : TopologyWrapper) (helper : ConfigHelper)

/-- The golay index that is read for a link. -/
def readLinkGolay (userConfiguredOnly : Bool) (link : Link) : Except LinkConfigError LinkGolay := do
  let readTx := helper.param userConfiguredOnly .txGolayIdx
  let readRx := helper.param userConfiguredOnly .rxGolayIdx
  let aGolayIdx ← getLinkGolayIdx readTx readRx link.aNodeName link.zNodeMac
  let zGolayIdx ← getLinkGolayIdx readTx readRx link.zNodeName link.aNodeMac
  return linkGolay aGolayIdx zGolayIdx

/-- The user part of the loop body of `getCurrentGolayConfig`. -/
def addUserGolay (clearUserConfig : Bool) (link : Link) (groupUserGolay : Option Int) :
    Except LinkConfigError (Option Int) :=
  if clearUserConfig then .ok groupUserGolay
  else do
    match ← readLinkGolay helper true link with
    | .missing => return groupUserGolay
    | .invalid =>
      .error (.invalidArgument ("Invalid user assigned golay index for:  " ++ link.name))
    | .index userGolay =>
      if groupUserGolay ≠ none ∧ groupUserGolay ≠ some userGolay then
        .error (.invalidArgument
          ("Incompatible user assigned golay index for link: " ++ link.name))
      else return some userGolay

/-- The loop of `getCurrentGolayConfig` over a group, up to the first link whose automatic index is
invalid or differs from that of the links before. -/
def groupGolay (clearUserConfig : Bool) : List String → Option Int → Option Int →
    Except LinkConfigError (Option Int × Option Int)
  | [], groupUserGolay, groupAutoGolay => .ok (groupUserGolay, groupAutoGolay)
  | linkName :: rest, groupUserGolay, groupAutoGolay =>
    match w.getLink linkName with
    | none => groupGolay clearUserConfig rest groupUserGolay groupAutoGolay
    | some link => do
      let groupUserGolay ← addUserGolay helper clearUserConfig link groupUserGolay
      match ← readLinkGolay helper false link with
      | .missing => groupGolay clearUserConfig rest groupUserGolay groupAutoGolay
      | .invalid => return (groupUserGolay, none)
      | .index autoGolay =>
        if groupAutoGolay ≠ none ∧ groupAutoGolay ≠ some autoGolay then
          return (groupUserGolay, none)
        else groupGolay clearUserConfig rest groupUserGolay (some autoGolay)

end Collect

section Assign

variable {R : Type} [Power R] (env : NetworkEnv R) (w : TopologyWrapper)

/-- The golay indices that `assignNetworkGolay` assigns to the groups. -/
def networkGolays (clearUserConfig : Bool) (helper : ConfigHelper) :
    Except LinkConfigError GroupName2Color := do
  let (group2UserGolay, group2AutoGolay) ← collectGroups env.interference
    (fun linkNames => groupGolay w helper clearUserConfig linkNames none none) (getLinkGroups w)
  return allocateNewLinkColors env.interference (getLinkGroups w) w helper group2UserGolay
    group2AutoGolay true golayColors

/-- `GolayHelper::assignNetworkGolay`. -/
def assignNetworkGolay (clearUserConfig : Bool) : LinkConfigM PUnit := do
  let assignedGolay ← check (networkGolays env w clearUserConfig)
  (groupLinks env.interference w).forM fun (groupName, link) => do
    let golay := (find groupName assignedGolay).getD 0
    if clearUserConfig then discard (setParams env.config true (golayWrites env.mac link none))
    discard (setParams env.config false
      (golayWrites env.mac link (some { txGolayIdx := golay, rxGolayIdx := golay })))

end Assign

/-! ### Valid golay indices -/

/-- The effective golay index of an end of a link. -/
def ConfigHelper.golayIdx (helper : ConfigHelper) (linkEnd : String × String) :
    Except LinkConfigError (Option GolayIdx) :=
  getLinkGolayIdx (helper.param false .txGolayIdx) (helper.param false .rxGolayIdx) linkEnd.1
    linkEnd.2

/-- Wireless links have valid golay indices, the same within a group. -/
structure GolayAssigned (w : TopologyWrapper) (helper : ConfigHelper) : Prop where
  valid : ∀ link ∈ w.topology.links, isRadioLink link = true →
    ∃ aGolayIdx zGolayIdx, helper.golayIdx (link.aNodeName, link.zNodeMac) = .ok aGolayIdx ∧
      helper.golayIdx (link.zNodeName, link.aNodeMac) = .ok zGolayIdx ∧
      isValidLinkGolay aGolayIdx zGolayIdx = true
  same : ∀ groupName, ∀ one ∈ w.topology.links, ∀ two ∈ w.topology.links,
    (getLinkGroups w).Holds groupName one.name → (getLinkGroups w).Holds groupName two.name →
    helper.golayIdx (one.aNodeName, one.zNodeMac) = helper.golayIdx (two.aNodeName, two.zNodeMac)

/-- Where golay indices are kept. -/
def golaySetting : LinkSetting where
  ends := linkEnds
  params := .link
  keys := [.txGolayIdx, .rxGolayIdx]
  ofLink link linkEnd isEnd := by
    simp only [linkEnds, mem_cons, not_mem_nil, or_false] at isEnd
    rcases isEnd with rfl | rfl
    · exact .inr rfl
    · exact .inl rfl
  injective _ _ same := FwParams.link.inj same

/-- What the user has set for the ends of the links of a topology fits an `int`. -/
def UserGolaysFit (w : TopologyWrapper) (layers : ParamLayers) : Prop :=
  ∀ link ∈ w.topology.links, ∀ linkEnd ∈ linkEnds link, ∀ golayIdx,
    golayShown (layers.user .txGolayIdx) (layers.user .rxGolayIdx) linkEnd.1 linkEnd.2 =
      some golayIdx → |golayIdx.txGolayIdx| < 2 ^ 31

/-- The user has set one golay index for all ends in a group, or none for any of them; in that case
the indices that the user has set in the network fit an `int`. -/
inductive GolaysSettled (w : TopologyWrapper) (layers : ParamLayers) (groupName : String) : Prop
  | set (idx : Int) (nonzero : idx ≠ 0)
      (everywhere : ∀ held, golaySetting.Held w layers groupName held → held = some idx)
  | free (nowhere : ∀ held, golaySetting.Held w layers groupName held → held = none)
      (fits : UserGolaysFit w layers)

/-! ### What is collected and written -/

theorem golayWrites_setBy (macUtils : MacUtils) {link : Link} (radio : isRadioLink link = true)
    (golay : Int) :
    golaySetting.SetBy macUtils
      (golayWrites macUtils link (some { txGolayIdx := golay, rxGolayIdx := golay })) link
      golay := by
  obtain ⟨_, aGiven, zGiven⟩ := isRadioLink_iff.mp radio
  intro _ _ key _
  cases key <;>
    simp [golayWrites, golayWrite, golaySetting, linkEnds, ParamWrite.Sets, find, aGiven,
      zGiven, eq_comm]
  all_goals grind

theorem isValidLinkGolay_iff {aGolayIdx zGolayIdx : Option GolayIdx} :
    isValidLinkGolay aGolayIdx zGolayIdx = true ↔
      ∃ idx, aGolayIdx = some { txGolayIdx := idx, rxGolayIdx := idx } ∧
        zGolayIdx = some { txGolayIdx := idx, rxGolayIdx := idx } := by
  constructor
  · intro valid
    cases aGolayIdx with
    | none => cases valid
    | some aGolayIdx =>
      cases zGolayIdx with
      | none => cases valid
      | some =>
        obtain ⟨tx, _⟩ := aGolayIdx
        simp only [isValidLinkGolay, Bool.and_eq_true, decide_eq_true_eq] at valid
        obtain ⟨rfl, rfl⟩ := valid
        exact ⟨tx, rfl, rfl⟩
  · rintro ⟨_, rfl, rfl⟩
    simp [isValidLinkGolay]

theorem nonzeroGolay_ne {golayIdx shown : GolayIdx} (isShown : nonzeroGolay golayIdx = some shown) :
    shown ≠ {} := by
  unfold nonzeroGolay at isShown
  split at isShown
  · next nonzero =>
    cases isShown
    exact nonzero
  · cases isShown

theorem nonzeroGolay_of_ne {idx : Int} (nonzero : idx ≠ 0) :
    nonzeroGolay { txGolayIdx := idx, rxGolayIdx := idx } =
      some { txGolayIdx := idx, rxGolayIdx := idx } :=
  if_pos fun isZero => nonzero (congrArg GolayIdx.txGolayIdx isZero)

/-- The golay index of a link is the one that an end has for both directions. -/
theorem linkGolay_eq_index {aGolayIdx zGolayIdx : Option GolayIdx} {golay : Int}
    (isIndex : linkGolay aGolayIdx zGolayIdx = .index golay) :
    ∃ idx : Int, golay = idx.bmod (2 ^ 32) ∧
      (aGolayIdx = some { txGolayIdx := idx, rxGolayIdx := idx } ∨
        zGolayIdx = some { txGolayIdx := idx, rxGolayIdx := idx }) := by
  unfold linkGolay at isIndex
  split at isIndex
  · next valid =>
    cases isIndex
    simp only [isValidLinkGolay_iff] at valid
    rcases valid with ⟨idx, rfl, rfl⟩ | ⟨rfl, idx, rfl, _⟩ | ⟨rfl, idx, rfl, _⟩
    · exact ⟨idx, rfl, .inl rfl⟩
    · exact ⟨idx, rfl, .inl rfl⟩
    · exact ⟨idx, rfl, .inr rfl⟩
  · split at isIndex <;> cases isIndex

section Collected

variable {w : TopologyWrapper} {helper : ConfigHelper} {link : Link} {golay : Int}

theorem addUserGolay_nonzero (typed : helper.Typed) (fits : UserGolaysFit w helper.layers)
    (isLink : link ∈ w.topology.links) {before : Option Int} (known : before ≠ some 0)
    (added : addUserGolay helper false link before = .ok (some golay)) : golay ≠ 0 := by
  have read : readLinkGolay helper true link = .ok (linkGolay
      (golayShown (helper.layers.user .txGolayIdx) (helper.layers.user .rxGolayIdx) link.aNodeName
        link.zNodeMac)
      (golayShown (helper.layers.user .txGolayIdx) (helper.layers.user .rxGolayIdx) link.zNodeName
        link.aNodeMac)) := by
    unfold readLinkGolay
    rw [typed.param_user_reader, typed.param_user_reader]
    rfl
  obtain ⟨_, isRead, rest⟩ := except_bind_eq_ok.mp added
  rw [read] at isRead
  cases isRead
  split at rest
  · cases rest
    exact fun zero => known (by rw [zero])
  · cases rest
  · next userGolay isIndex =>
    split at rest
    · cases rest
    · cases rest
      obtain ⟨idx, rfl, atEnd⟩ := linkGolay_eq_index isIndex
      obtain ⟨linkEnd, isEnd, isShown⟩ : ∃ linkEnd ∈ linkEnds link,
          golayShown (helper.layers.user .txGolayIdx) (helper.layers.user .rxGolayIdx) linkEnd.1
            linkEnd.2 = some { txGolayIdx := idx, rxGolayIdx := idx } := by
        simpa [linkEnds] using atEnd
      have small : -2 ^ 31 < idx ∧ idx < 2 ^ 31 :=
        abs_lt.mp (fits link isLink linkEnd isEnd _ isShown)
      rw [Int.bmod_eq_of_le (by omega) (by omega)]
      exact fun zero => nonzeroGolay_ne isShown (by rw [zero])

theorem groupGolay_nonzero (index : w.ExactLinks)
    (typed : helper.Typed) (fits : UserGolaysFit w helper.layers) {linkNames : List String}
    {before auto auto' : Option Int} (known : before ≠ some 0)
    (collected : groupGolay w helper false linkNames before auto = .ok (some golay, auto')) :
    golay ≠ 0 := by
  induction linkNames generalizing before auto with
  | nil =>
    cases collected
    exact fun zero => known (by rw [zero])
  | cons linkName _ ih =>
    rw [groupGolay] at collected
    cases found : w.getLink linkName with
    | none =>
      rw [found] at collected
      exact ih known collected
    | some link =>
      rw [found] at collected
      obtain ⟨user, isUser, rest⟩ := except_bind_eq_ok.mp collected
      obtain ⟨auto, _, rest⟩ := except_bind_eq_ok.mp rest
      have isLink := (index.find_eq_some_iff.mp found).1
      have known' : user ≠ some 0 := by
        rintro rfl
        exact addUserGolay_nonzero typed fits isLink known isUser rfl
      -- the loop goes on, or it ends here with the index of the user
      have ended : Except.ok (user, none) = Except.ok (ε := LinkConfigError) (some golay, auto') →
          golay ≠ 0 := by
        intro same
        cases same
        exact fun zero => known' (by rw [zero])
      split at rest
      · exact ih known' rest
      · exact ended rest
      · split at rest
        · exact ended rest
        · exact ih known' rest

/-- Every group is given an index that is not zero. -/
theorem networkGolays_spec {R : Type} [Power R] {env : NetworkEnv R}
    (index : w.ExactLinks) (typed : helper.Typed)
    (fits : UserGolaysFit w helper.layers) {assigned : GroupName2Color}
    (planned : networkGolays env w false helper = .ok assigned) {groupName linkName : String}
    (inGroup : (getLinkGroups w).Holds groupName linkName) :
    ∃ golay, find groupName assigned = some golay ∧ golay ≠ 0 := by
  obtain ⟨_, collected, allocated⟩ := except_bind_eq_ok.mp planned
  cases allocated
  refine allocateNewLinkColors_spec env.interference (by decide) (by decide) _ w helper
    (collectGroups_user ?_ collected) _ true inGroup
  intro linkNames golay _ isGroup
  exact groupGolay_nonzero index typed fits (by simp) isGroup

end Collected

/-! ### When the assignment is valid -/

/-- The assignment is valid if the ends in every group show one index for both directions. -/
theorem golayAssigned_of_groups {w : TopologyWrapper} {helper : ConfigHelper}
    (index : w.ExactLinks)
    (groups : ∀ groupName, ∃ idx : Int, ∀ link ∈ w.topology.links,
      (getLinkGroups w).Holds groupName link.name → ∀ linkEnd ∈ linkEnds link,
        helper.golayIdx linkEnd = .ok (some { txGolayIdx := idx, rxGolayIdx := idx })) :
    GolayAssigned w helper where
  valid link isLink radio := by
    obtain ⟨groupName, inGroup⟩ := exists_holds index.nodup isLink radio
    obtain ⟨idx, atLinks⟩ := groups groupName
    have atEnds := atLinks link isLink inGroup
    exact ⟨_, _, atEnds _ (by simp [linkEnds]), atEnds _ (by simp [linkEnds]),
      isValidLinkGolay_iff.mpr ⟨idx, rfl, rfl⟩⟩
  same groupName one isOne two isTwo oneIn twoIn := by
    obtain ⟨_, atLinks⟩ := groups groupName
    rw [atLinks one isOne oneIn _ (linkEnds_first one),
      atLinks two isTwo twoIn _ (linkEnds_first two)]

/-- What is written for a link. -/
def golayOfGroup {R : Type} (env : NetworkEnv R) (assigned : GroupName2Color)
    (item : String × Link) : List ParamWrite :=
  golayWrites env.mac item.2 (some
    { txGolayIdx := (find item.1 assigned).getD 0
      rxGolayIdx := (find item.1 assigned).getD 0 })

/-- The ends of the first link differ in their index, and the user has set 2 for the second link. -/
def userGolayBehindClash : ConfigHelper where
  autoNodesOverrides := ⟨.object
    [("a", linkOverride "02:00:00:00:00:02" [(.txGolayIdx, 1), (.rxGolayIdx, 1)]),
      ("b", linkOverride "02:00:00:00:00:01" [(.txGolayIdx, 2), (.rxGolayIdx, 2)])],
    by decide +kernel⟩
  nodesOverrides := ⟨.object
    [("a", linkOverride "02:00:00:00:00:03" [(.txGolayIdx, 2), (.rxGolayIdx, 2)]),
      ("c", linkOverride "02:00:00:00:00:01" [(.txGolayIdx, 2), (.rxGolayIdx, 2)])],
    by decide +kernel⟩

end Terragraph
