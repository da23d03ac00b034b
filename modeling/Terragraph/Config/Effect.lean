/-
Module: Terragraph.Config.Effect
Purpose: What an accepted request to set overrides does to the stored layer, which changes of
  read-only and deprecated keys it cannot make, and that the metadata checks are closed under
  merging.
Trusted boundary: none
Main exports: overrides_take_effect_iff, protected_keys_kept_iff, validation_closed_under_merging
-/
import Terragraph.Config.Overrides

namespace Terragraph

open Option

/-! ### Effects -/

def Untouched (request : Json) (path : List String) : Prop :=
  request.atPath path = none ∧
    ∀ start value, start <+: path → request.atPath start = some value → value.isObject = true

/-- A request takes effect: its values are stored, and whatever else was stored is stored still. -/
structure TakesEffect (before request after : Json) : Prop where
  sets : ∀ path value, request.atPath path = some value → value.isObject = false →
    after.atPath path = some value
  keeps : ∀ path value, before.atPath path = some value → Untouched request path →
    ∃ value', after.atPath path = some value' ∧ Json.Same value value'

/-- A value can be stored at a path: the layer is an object and has no object at that path. -/
def Settable (old : Json) (path : List String) (value : Json) : Prop :=
  if old.isObject then ∀ stored, old.atPath path = some stored → stored.isObject = false
  else path = [] ∧ value = old

def AllSettable (old request : Json) : Prop :=
  ∀ path value, request.atPath path = some value → value.isObject = false → Settable old path value

theorem settable_of_isObject {old : Json} (isObject : old.isObject = true) (path : List String)
    (value : Json) : Settable old path value ↔
      ∀ stored, old.atPath path = some stored → stored.isObject = false := by
  rw [Settable, if_pos isObject]

variable {value : Json} {old request : Json} {path : List String}

/-- A value of the request is in the merged layer exactly if it could be stored. -/
theorem atPath_merge_iff
    (unique : request.uniqueKeys = true) (requested : request.atPath path = some value)
    (notObject : value.isObject = false) :
    (Json.dynamicObjectMerge old request).atPath path = some value ↔ Settable old path value := by
  cases isObject : old.isObject with
  | true =>
    rw [settable_of_isObject isObject, Json.atPath_merge isObject unique, requested]
    cases old.atPath path with
    | none => simp
    | some stored =>
      show some (Json.mergeValue stored value) = some value ↔ _
      cases isStored : stored.isObject with
      | true =>
        have differ : stored ≠ value := by
          rintro rfl
          cases isStored.symm.trans notObject
        rw [Json.mergeValue_of_isObject isStored, Json.merge_of_not_isObject (.inr notObject)]
        simp [isStored, differ]
      | false =>
        rw [Json.mergeValue_of_not_isObject isStored]
        simp [isStored]
  | false =>
    rw [Json.merge_of_not_isObject (.inl isObject), Settable, isObject, if_neg Bool.false_ne_true]
    cases path with
    | nil => simp [eq_comm]
    | cons => simp [Json.atPath_of_not_isObject isObject]

theorem atPath_merge_of_untouched
    (unique : request.uniqueKeys = true) (stored : old.atPath path = some value)
    (untouched : request.atPath path = none) :
    (Json.dynamicObjectMerge old request).atPath path = some value := by
  cases path with
  | nil => cases untouched
  | cons =>
    rw [Json.atPath_merge (Json.isObject_of_atPath stored) unique, stored, untouched]
    rfl

theorem takesEffect_of_same {before request after after' : Json} (same : Json.Same after after') :
    TakesEffect before request after ↔ TakesEffect before request after' := by
  have oneWay : ∀ {one two : Json}, Json.Same one two →
      TakesEffect before request one → TakesEffect before request two := by
    intro _ _ same effect
    constructor
    · intro path value requested notObject
      exact same.atPath_leaf notObject (effect.sets path value requested notObject)
    · intro path value stored untouched
      obtain ⟨_, reached, sameValue⟩ := effect.keeps path value stored untouched
      obtain ⟨value'', reached', sameAgain⟩ := same.atPath reached
      exact ⟨value'', reached', sameValue.trans sameAgain⟩
  exact ⟨oneWay same, oneWay same.symm⟩

theorem takesEffect_merge_iff (unique : request.uniqueKeys = true) :
    TakesEffect old request (Json.dynamicObjectMerge old request) ↔ AllSettable old request := by
  constructor
  · intro effect path value requested notObject
    exact (atPath_merge_iff unique requested notObject).mp
      (effect.sets path value requested notObject)
  · intro settable
    constructor
    · intro path value requested notObject
      exact (atPath_merge_iff unique requested notObject).mpr
        (settable path value requested notObject)
    · intro _ value stored untouched
      exact ⟨value, atPath_merge_of_untouched unique stored untouched.1, .refl value⟩

/-! ### Requests -/

def NodesSettable (helper : ConfigHelper) (request : Dynamic) : Prop :=
  ∀ nodeName new, request.find nodeName = some new →
    AllSettable (helper.storedOverrides nodeName).json new.json

def NetworkSettable (helper : ConfigHelper) (request : Dynamic) : Prop :=
  AllSettable helper.networkOverrides.json request.json

theorem Dynamic.atPath_cons (value : Dynamic) (key : String) (path : List String) :
    value.json.atPath (key :: path) = (value.find key).bind fun found => found.json.atPath path := by
  rw [Json.atPath_cons, ← Dynamic.map_json_find, bind_map]
  rfl

variable {helper : ConfigHelper}

theorem takesEffect_nodes_iff {request full : Dynamic} (isObject : request.isObject = true)
    (finds : ∀ nodeName, full.find nodeName = match request.find nodeName with
      | none => helper.nodesOverrides.find nodeName
      | some new => some (updatedNodeConfig false (helper.nodesOverrides.find nodeName) new)) :
    TakesEffect helper.nodesOverrides.json request.json full.json ↔ NodesSettable helper request := by
  have merged : ∀ nodeName new, request.find nodeName = some new →
      full.find nodeName = some ((helper.storedOverrides nodeName).merge new) := by
    intro nodeName _ found
    rw [finds nodeName, found]
    rfl
  constructor
  · intro effect nodeName new found path value requested notObject
    have reached := effect.sets (nodeName :: path) value
      (by rw [Dynamic.atPath_cons, found]; exact requested) notObject
    rw [Dynamic.atPath_cons, merged nodeName new found] at reached
    exact (atPath_merge_iff new.unique requested notObject).mp reached
  · intro settable
    constructor
    · intro path value requested notObject
      cases path with
      | nil =>
        rw [← some.inj requested] at notObject
        cases isObject.symm.trans notObject
      | cons nodeName rest =>
        rw [Dynamic.atPath_cons, bind_eq_some_iff] at requested
        obtain ⟨new, found, requested⟩ := requested
        rw [Dynamic.atPath_cons, merged nodeName new found]
        exact (atPath_merge_iff new.unique requested notObject).mpr
          (settable nodeName new found rest value requested notObject)
    · intro path value stored untouched
      refine ⟨value, ?_, .refl value⟩
      cases path with
      | nil => cases untouched.1
      | cons nodeName =>
        rw [Dynamic.atPath_cons, bind_eq_some_iff] at stored
        obtain ⟨old, isOld, stored⟩ := stored
        cases found : request.find nodeName with
        | none =>
          have kept := finds nodeName
          rw [found] at kept
          rw [Dynamic.atPath_cons, kept, isOld]
          exact stored
        | some new =>
          have below := untouched.1
          rw [Dynamic.atPath_cons, found] at below
          have isStored : helper.storedOverrides nodeName = old := by
            rw [ConfigHelper.storedOverrides, isOld]
            rfl
          rw [Dynamic.atPath_cons, merged nodeName new found, isStored]
          exact atPath_merge_of_untouched new.unique stored below

/-- An accepted request takes effect exactly if every value in it can be stored. -/
theorem overrides_take_effect_iff (env : ConfigEnv) (working : env.Working)
    (helper helper' : ConfigHelper) (overrides errorMsg : String) (topologyNodeNames : List String)
    (request : Dynamic) (parsed : env.parseJson overrides = .ok request) :
    ((validateAndSetNewNodeOverrides env overrides topologyNodeNames false).run helper =
        .ok errorMsg helper' →
      (TakesEffect helper.nodesOverrides.json request.json helper'.nodesOverrides.json ↔
        NodesSettable helper request)) ∧
    ((validateAndSetNewNetworkOverrides env overrides false).run helper = .ok errorMsg helper' →
      (TakesEffect helper.networkOverrides.json request.json helper'.networkOverrides.json ↔
        NetworkSettable helper request)) := by
  constructor
  · intro returned
    obtain ⟨_, accepted, isSet⟩ := validateAndSetNewNodeOverrides_ok returned
    cases parsed.symm.trans accepted.parsed
    obtain ⟨full, written, _, finds⟩ := isSet.nodesOverrides
    obtain ⟨_, readBack, same⟩ := working full
    cases written.symm.trans readBack
    rw [← takesEffect_of_same same]
    exact takesEffect_nodes_iff accepted.isObject finds
  · intro returned
    obtain ⟨_, accepted, written⟩ := validateAndSetNewNetworkOverrides_ok returned
    cases parsed.symm.trans accepted.parsed
    obtain ⟨_, readBack, same⟩ := working (helper.networkOverrides.merge request)
    cases written.symm.trans readBack
    rw [← takesEffect_of_same same]
    exact takesEffect_merge_iff request.unique

def ConfigEnv.parsing (request : Dynamic) : ConfigEnv :=
  { ConfigEnv.withoutFiles with parseJson := fun _ => .ok request }

theorem ConfigEnv.working_parsing (request : Dynamic) : (ConfigEnv.parsing request).Working :=
  fun value => ⟨value, rfl, .refl _⟩

def oneOverride : ConfigHelper where
  nodesOverrides := ⟨.object [("node", .object [("radio", .object [("channel", .int 1)])])], rfl⟩

def golayRequest : Dynamic :=
  ⟨.object [("node", .object [("radio", .object [("golay", .int 2)])])], by decide⟩

def numberRequest : Dynamic :=
  ⟨.object [("node", .object [("radio", .int 2)])], by decide⟩

theorem Json.find_singleton {key other : String} {inner : Json}
    (found : (Json.object [(key, inner)]).find other = some value) : other = key ∧ value = inner := by
  rw [Json.find_object, AssocList.find] at found
  split at found
  · next same => exact ⟨same.symm, (some.inj found).symm⟩
  · cases found

theorem nodesSettable_golayRequest : NodesSettable oneOverride golayRequest := by
  intro _ _ found path value requested notObject
  obtain ⟨rfl, isNew⟩ := Json.find_singleton (Dynamic.find_eq_some_iff.mp found)
  rw [isNew] at requested
  refine (settable_of_isObject rfl path value).mpr ?_
  intro stored reached
  -- The only path to a value in the request is to a key that is not stored.
  cases path with
  | nil =>
    cases requested
    cases notObject
  | cons key rest =>
    rw [Json.atPath_cons, bind_eq_some_iff] at requested
    obtain ⟨_, isRadio, requested⟩ := requested
    obtain ⟨rfl, rfl⟩ := Json.find_singleton isRadio
    cases rest with
    | nil =>
      cases requested
      cases notObject
    | cons =>
      rw [Json.atPath_cons, bind_eq_some_iff] at requested
      obtain ⟨_, isGolay, _⟩ := requested
      obtain ⟨rfl, _⟩ := Json.find_singleton isGolay
      cases reached

/-- A request for a golay index takes effect over the stored one. -/
theorem golayRequest_takes_effect : ∃ errorMsg helper',
    (validateAndSetNewNodeOverrides (.parsing golayRequest) "" ["node"] false).run oneOverride =
      .ok errorMsg helper' ∧
    TakesEffect oneOverride.nodesOverrides.json golayRequest.json helper'.nodesOverrides.json :=
  ⟨_, _, rfl, ((overrides_take_effect_iff (.parsing golayRequest)
    (ConfigEnv.working_parsing golayRequest) oneOverride _ "" _ ["node"] golayRequest rfl).1 rfl).mpr
    nodesSettable_golayRequest⟩

/-- A number that is requested in place of a stored object is accepted and not stored. -/
theorem numberRequest_has_no_effect : ∃ errorMsg helper',
    (validateAndSetNewNodeOverrides (.parsing numberRequest) "" ["node"] false).run oneOverride =
      .ok errorMsg helper' ∧
    ¬ TakesEffect oneOverride.nodesOverrides.json numberRequest.json
      helper'.nodesOverrides.json := by
  refine ⟨_, _, rfl, ?_⟩
  intro effect
  have stored := effect.sets ["node", "radio"] (.int 2) rfl rfl
  cases stored

open ConfigMetadata Guarded Json List

def Protected (metaMap : MetaMap) (path : List String) : Prop :=
  ∃ point, Leads (.level metaMap) path point ∧ (point.readOnly = true ∨ point.deprecated = true)

def Protects (metaMap : MetaMap) (old new : Json) : Prop :=
  ∀ path value, Protected metaMap path → new.atPath path = some value →
    ∃ stored, old.atPath path = some stored ∧ stored.equal value = true

/-- The check does not see a change at a path: a key on it has a dot, an object is stored there, or
the stored overrides or the lower layers are no object. -/
def Overlooked (lower old : Json) (path : List String) : Prop :=
  (∃ key ∈ path, '.' ∈ key.toList) ∨
    (∃ stored, old.atPath path = some stored ∧ stored.isObject = true) ∨
    old.isObject = false ∨ lower.isObject = false

/-- Where the check overlooks a protected key, the new overrides keep the old value. -/
def ProtectsOverlooked (metaMap : MetaMap) (lower old new : Json) : Prop :=
  ∀ path value, Protected metaMap path → Overlooked lower old path →
    new.atPath path = some value → ∃ stored, old.atPath path = some stored ∧
      stored.equal value = true

/-! ### What the check sees -/

theorem exists_atPath_merge {lower upper : Json} (isObject : lower.isObject = true)
    (unique : upper.uniqueKeys = true) (reached : upper.atPath path = some value) :
    ∃ shown, (dynamicObjectMerge lower upper).atPath path = some shown := by
  rw [atPath_merge isObject unique, reached]
  exact exists_mergeOpt_some _ _

theorem mem_filterValidationResults {result : ValidationResult} {overrides : Json} {key : String}
    (contained : overrides.objectContains (toJsonPointer key) = true) :
    (key ∈ result.readOnlyKeys → key ∈ (filterValidationResults result overrides).readOnlyKeys) ∧
      (key ∈ result.deprecatedKeys →
        key ∈ (filterValidationResults result overrides).deprecatedKeys) :=
  ⟨fun member => mem_filter.mpr ⟨member, contained⟩,
    fun member => mem_filter.mpr ⟨member, contained⟩⟩

variable {env : ConfigEnv} {metaMap : MetaMap} {full lower new : Json}

/-- A protected key that a request sets at a path that the check sees has its old value. -/
theorem checks_see
    (passed : ChecksPassed env metaMap full old new) (uniqueFull : full.uniqueKeys = true)
    (uniqueNew : new.uniqueKeys = true)
    (sees : lower.isObject = true → ∃ shown, full.atPath path = some shown)
    (isProtected : Protected metaMap path) (seen : ¬ Overlooked lower old path)
    (requested : new.atPath path = some value) :
    ∃ stored, old.atPath path = some stored ∧ stored.equal value = true := by
  obtain ⟨point, leads, flags⟩ := isProtected
  obtain ⟨_, validated, noReadOnly, noDeprecated⟩ := passed.returned
  rw [Overlooked, not_or, not_or, not_or] at seen
  obtain ⟨noDots, noObject, isOld, isLower⟩ := seen
  by_contra different
  have changed : ∀ stored, old.atPath path = some stored →
      stored.isObject = false ∧ stored.equal value = false := by
    intro stored reached
    constructor
    · by_contra isObject
      exact noObject ⟨stored, reached, Bool.not_eq_false _ ▸ isObject⟩
    · by_contra same
      exact different ⟨stored, reached, Bool.not_eq_false _ ▸ same⟩
  have noDots : ∀ key ∈ path, '.' ∉ key.toList := fun key member dot => noDots ⟨key, member, dot⟩
  obtain ⟨_, inDifference⟩ := atPath_difference leads.ne_nil (Bool.not_eq_false _ ▸ isOld)
    uniqueNew requested changed
  have contained := objectContains_of_atPath leads.ne_nil noDots inDifference
  obtain ⟨shown, inFull⟩ := sees (Bool.not_eq_false _ ▸ isLower)
  have reported := reports_validate uniqueFull validated path point shown leads inFull
  rcases flags with readOnly | deprecated
  · have member := (mem_filterValidationResults contained).1 (reported.1 readOnly)
    rw [noReadOnly] at member
    cases member
  · have member := (mem_filterValidationResults contained).2 (reported.2 deprecated)
    rw [noDeprecated] at member
    cases member

theorem checks_protect_iff
    (passed : ChecksPassed env metaMap full old new) (uniqueFull : full.uniqueKeys = true)
    (uniqueNew : new.uniqueKeys = true)
    (sees : ∀ path value, new.atPath path = some value → lower.isObject = true →
      ∃ shown, full.atPath path = some shown) :
    Protects metaMap old new ↔ ProtectsOverlooked metaMap lower old new := by
  constructor
  · intro protects path value isProtected _ requested
    exact protects path value isProtected requested
  · intro protects path value isProtected requested
    by_cases overlooked : Overlooked lower old path
    · exact protects path value isProtected overlooked requested
    · exact checks_see passed uniqueFull uniqueNew (sees path value requested) isProtected overlooked
        requested

/-! ### Requests -/

def ConfigHelper.autoOverrides (helper : ConfigHelper) (nodeName : String) : Dynamic :=
  (helper.autoNodesOverrides.find nodeName).getD .object

variable {new : Dynamic}

theorem exists_atPath_nodeConfigWith {nodeName : String}
    (requested : new.json.atPath path = some value)
    (isObject : (helper.autoOverrides nodeName).json.isObject = true) :
    ∃ shown, (helper.nodeConfigWith env nodeName new).json.atPath path = some shown := by
  have isLayers : ((helper.autoOverrides nodeName).merge helper.networkOverrides).json.isObject =
      true := (isObject_merge _ _).trans isObject
  obtain ⟨_, reached⟩ := exists_atPath_merge isLayers new.unique requested
  exact exists_atPath_merge rfl (Dynamic.unique _) reached

/-- An accepted request changes no protected key, exactly if it changes none at overlooked paths. -/
theorem protected_keys_kept_iff (env : ConfigEnv) (helper helper' : ConfigHelper)
    (overrides : String) (topologyNodeNames : List String) (reply : Dynamic × String)
    (request : Dynamic) (parsed : env.parseJson overrides = .ok request) :
    ((validateNewNodeOverrides env overrides topologyNodeNames).run helper = .ok reply helper' →
      ∀ nodeName new, request.find nodeName = some new →
        (Protects helper.nodeConfigMeta (helper.storedOverrides nodeName).json new.json ↔
          ProtectsOverlooked helper.nodeConfigMeta (helper.autoOverrides nodeName).json
            (helper.storedOverrides nodeName).json new.json)) ∧
    ((validateNewNetworkOverrides env overrides).run helper = .ok reply helper' →
      (Protects helper.nodeConfigMeta helper.networkOverrides.json request.json ↔
        ProtectsOverlooked helper.nodeConfigMeta (.object []) helper.networkOverrides.json
          request.json)) := by
  constructor
  · intro returned nodeName new found
    obtain ⟨_, accepted, _⟩ := validateNewNodeOverrides_ok returned
    cases parsed.symm.trans accepted.parsed
    exact checks_protect_iff (accepted.each nodeName new found).passed (Dynamic.unique _) new.unique
      (fun _ _ requested isObject => exists_atPath_nodeConfigWith requested isObject)
  · intro returned
    obtain ⟨accepted, _⟩ := validateNewNetworkOverrides_ok returned
    cases parsed.symm.trans accepted.parsed
    refine checks_protect_iff accepted.passed (Dynamic.unique _) reply.1.unique ?_
    intro path _ requested _
    obtain ⟨merged, reached⟩ : ∃ merged,
        (Dynamic.object.merge reply.1).json.atPath path = some merged :=
      exists_atPath_merge rfl reply.1.unique requested
    exact exists_atPath_merge rfl (Dynamic.unique _) reached

def tunnelMeta : MetaMap :=
  [("tunnelConfig", .param ⟨.map (.object [("enabled", .mk .boolean false true false false)]), false,
    false, false⟩)]

def tunnelRequest (tunnelName : String) : Dynamic :=
  ⟨.object [("node", .object [("tunnelConfig",
    .object [(tunnelName, .object [("enabled", .bool true)])])])], rfl⟩

def tunnels (nodesOverrides : Dynamic) : ConfigHelper where
  nodeConfigMeta := tunnelMeta
  nodesOverrides := nodesOverrides

theorem atPath_singleton {key : String} {found : Json}
    (requested : (Json.object [(key, value)]).atPath path = some found) :
    (path = [] ∧ Json.object [(key, value)] = found) ∨
      ∃ rest, path = key :: rest ∧ value.atPath rest = some found := by
  cases path with
  | nil => exact .inl ⟨rfl, some.inj requested⟩
  | cons _ rest =>
    rw [atPath_cons, bind_eq_some_iff] at requested
    obtain ⟨_, isMember, requested⟩ := requested
    obtain ⟨rfl, rfl⟩ := find_singleton isMember
    exact .inr ⟨rest, rfl, requested⟩

theorem protectsOverlooked_tunnelRequest (lower : Json)
    (found : (tunnelRequest "a").find "node" = some new) :
    ProtectsOverlooked tunnelMeta lower new.json new.json := by
  obtain ⟨_, isNew⟩ := find_singleton (Dynamic.find_eq_some_iff.mp found)
  intro path value _ _ requested
  refine ⟨value, requested, ?_⟩
  rw [isNew] at requested
  -- Every value in the request equals itself.
  rcases atPath_singleton requested with ⟨rfl, rfl⟩ | ⟨_, rfl, inConfig⟩
  · decide +kernel
  rcases atPath_singleton inConfig with ⟨rfl, rfl⟩ | ⟨_, rfl, inTunnel⟩
  · decide +kernel
  rcases atPath_singleton inTunnel with ⟨rfl, rfl⟩ | ⟨path, rfl, inFlag⟩
  · decide +kernel
  cases path with
  | nil =>
    cases inFlag
    decide +kernel
  | cons => cases inFlag

/-- Sending the stored value of a read-only key again is accepted and changes nothing. -/
theorem tunnel_kept : ∃ reply helper' new,
    (validateNewNodeOverrides (.parsing (tunnelRequest "a")) "" ["node"]).run
      (tunnels (tunnelRequest "a")) = .ok reply helper' ∧
    (tunnelRequest "a").find "node" = some new ∧
    Protects tunnelMeta new.json new.json := by
  obtain ⟨reply, helper', returned⟩ := exists_of_returns (show returns
    ((validateNewNodeOverrides (.parsing (tunnelRequest "a")) "" ["node"]).run
      (tunnels (tunnelRequest "a"))) = true by decide +kernel)
  have kept := (protected_keys_kept_iff (.parsing (tunnelRequest "a")) (tunnels (tunnelRequest "a"))
    helper' "" ["node"] reply (tunnelRequest "a") rfl).1 returned "node" _ rfl
  exact ⟨reply, helper', _, returned, rfl, kept.mpr (protectsOverlooked_tunnelRequest _ rfl)⟩

/-- A read-only key in a map can be set if there is a dot in its key. -/
theorem dotted_tunnel_set : ∃ reply helper' new,
    (validateNewNodeOverrides (.parsing (tunnelRequest "a.b")) "" ["node"]).run
      (tunnels .object) = .ok reply helper' ∧
    (tunnelRequest "a.b").find "node" = some new ∧
    ¬ Protects tunnelMeta ((tunnels .object).storedOverrides "node").json new.json := by
  obtain ⟨reply, helper', returned⟩ := exists_of_returns (show returns
    ((validateNewNodeOverrides (.parsing (tunnelRequest "a.b")) "" ["node"]).run
      (tunnels .object)) = true by decide +kernel)
  refine ⟨reply, helper', _, returned, rfl, ?_⟩
  intro protects
  have isProtected : Protected tunnelMeta ["tunnelConfig", "a.b", "enabled"] :=
    ⟨_, .further (.param rfl) (.further .value (.here (.property mem_cons_self))), .inl rfl⟩
  obtain ⟨_, found, _⟩ :=
    protects ["tunnelConfig", "a.b", "enabled"] (.bool true) isProtected rfl
  cases found

open Json

/-! ### What a merged value consists of -/

namespace Json

variable {below : Option Json}

theorem isObject_mergeOpt {merged : Json} (isObject : value.isObject = true)
    (isMerged : mergeOpt below (some value) = some merged) :
    merged.isObject = true := by
  cases below with
  | none =>
    rw [← some.inj isMerged]
    exact isObject
  | some below =>
    have same : mergeValue below value = merged := some.inj isMerged
    rw [← same]
    cases isBelow : below.isObject with
    | true => rw [mergeValue_of_isObject isBelow, isObject_merge, isBelow]
    | false => rw [mergeValue_of_not_isObject isBelow, isObject]

/-- The value `merged` stands in `first` or `second`, or is an object with the keys of `first`
there. -/
def Blends (first second merged : Option Json) : Prop :=
  ∀ value, merged = some value → first = some value ∨ second = some value ∨
    (value.isObject = true ∧ ∃ other, first = some other ∧ other.isObject = true ∧
      ∀ key, other.find key ≠ none → value.find key ≠ none)

variable (first second : Option Json)

theorem Blends.left : Blends first second first :=
  fun _ isValue => .inl isValue

theorem Blends.right : Blends first second second :=
  fun _ isValue => .inr (.inl isValue)

/-- Merging changes something only if an object is merged into an object. -/
theorem mergeOpt_cases (old new : Option Json) : mergeOpt old new = old ∨ mergeOpt old new = new ∨
      ∃ one two, old = some one ∧ new = some two ∧ one.isObject = true ∧ two.isObject = true ∧
        mergeOpt old new = some (dynamicObjectMerge one two) := by
  cases old with
  | none => exact .inr (.inl (none_mergeOpt new))
  | some one =>
    cases new with
    | none => exact .inl rfl
    | some two =>
      cases isOne : one.isObject with
      | false => exact .inr (.inl (congrArg some (mergeValue_of_not_isObject isOne two)))
      | true =>
        have merged : mergeOpt (some one) (some two) = some (dynamicObjectMerge one two) :=
          congrArg some (mergeValue_of_isObject isOne two)
        cases isTwo : two.isObject with
        | false =>
          left
          rw [merged, merge_of_not_isObject (.inr isTwo)]
        | true => exact .inr (.inr ⟨one, two, rfl, rfl, isOne, isTwo, merged⟩)

theorem blends_mergeOpt {old new : Option Json} (uniqueOld : UniqueOpt old)
    (uniqueNew : UniqueOpt new) :
    Blends (mergeOpt below old) (mergeOpt below new) (mergeOpt below (mergeOpt old new)) := by
  rcases mergeOpt_cases old new with same | same | ⟨one, two, rfl, rfl, isOne, _, merged⟩
  · rw [same]
    exact .left _ _
  · rw [same]
    exact .right _ _
  · have nodupOne := nodup_of_uniqueKeys (uniqueOld one rfl)
    have isBoth : (dynamicObjectMerge one two).isObject = true := (isObject_merge _ _).trans isOne
    have finds (layer : Json) (nodup : (AssocList.keys layer.members).Nodup) (key : String) :
        (mergeOpt below (some layer)).bind (find key) =
          mergeOpt (below.bind (find key)) (layer.find key) :=
      bind_find_mergeOpt fun _ same => some.inj same ▸ nodup
    obtain ⟨first, isFirst⟩ := exists_mergeOpt_some below one
    rw [merged]
    intro _ isValue
    refine .inr (.inr ⟨isObject_mergeOpt isBoth isValue, first, isFirst,
      isObject_mergeOpt isOne isFirst, fun key present absent => ?_⟩)
    have inFirst := finds one nodupOne key
    have inBoth := finds _ (nodup_keys_merge nodupOne two) key
    rw [isFirst] at inFirst
    rw [isValue, find_merge isOne (uniqueNew two rfl)] at inBoth
    have none := mergeOpt_eq_none_iff.mp (inBoth.symm.trans absent)
    exact present (inFirst.trans
      (mergeOpt_eq_none_iff.mpr ⟨none.1, (mergeOpt_eq_none_iff.mp none.2).1⟩))

/-- Along every path, two layers merged over a third show what one of them shows over it, or an
object with the keys of the first. -/
theorem atPath_merged (path : List String) {below old new : Json} (isBelow : below.isObject = true)
    (isOld : old.isObject = true) (uniqueOld : old.uniqueKeys = true)
    (uniqueNew : new.uniqueKeys = true) :
    Blends ((dynamicObjectMerge below old).atPath path) ((dynamicObjectMerge below new).atPath path)
      ((dynamicObjectMerge below (dynamicObjectMerge old new)).atPath path) := by
  have unique {json : Json} (unique : json.uniqueKeys = true) : UniqueOpt (json.atPath path) :=
    @UniqueOpt.bind_atPath (some json) (fun _ same => some.inj same ▸ unique) path
  rw [atPath_merge isBelow uniqueOld, atPath_merge isBelow uniqueNew,
    atPath_merge isBelow (uniqueKeys_merge new uniqueOld uniqueNew),
    atPath_merge isOld uniqueNew]
  exact blends_mergeOpt (unique uniqueOld) (unique uniqueNew)

end Json

/-! ### Acceptance -/

namespace ConfigMetadata

variable {conv : Conversions}

variable {shape : MetaShape}

theorem Allows.of_keys {other : Json} (allows : Allows conv shape value)
    (isValue : value.isObject = true) (isOther : other.isObject = true)
    (keys : ∀ key, value.find key ≠ none → other.find key ≠ none) : Allows conv shape other := by
  rw [eq_object_of_isObject isValue] at allows
  cases shape with
  | level => trivial
  | param param =>
    cases param with
    | integer => cases allows
    | float floatVal => cases floatVal <;> cases allows
    | string strVal | boolean => cases allows
    | anyObject => exact isOther
    | object =>
      obtain ⟨_, required⟩ := allows
      refine ⟨isOther, ?_⟩
      intro property member isRequired
      exact keys property.1 (required property member isRequired)
    | anyMap | map mapVal => exact isOther

theorem Allows.of_same {other : Json} (allows : Allows conv shape value)
    (same : Json.Same value other) : Allows conv shape other := by
  cases isObject : value.isObject with
  | false => exact same.eq_of_not_isObject isObject ▸ allows
  | true =>
    apply allows.of_keys isObject (same.isObject_eq ▸ isObject)
    intro key present absent
    rcases (same.find key).cases with ⟨noValue, _⟩ | ⟨_, _, _, isFound, _⟩
    · exact present noValue
    · cases absent.symm.trans isFound

theorem Accepts.of_same {json other : Json} (accepts : Accepts conv shape json)
    (same : Json.Same json other) : Accepts conv shape other := by
  intro path point _ leads reached
  obtain ⟨value', reached', sameValue⟩ := same.symm.atPath reached
  exact (accepts path point value' leads reached').of_same sameValue.symm

theorem Accepts.merged {below old new : Json} (isBelow : below.isObject = true)
    (isOld : old.isObject = true) (uniqueOld : old.uniqueKeys = true)
    (uniqueNew : new.uniqueKeys = true)
    (acceptsOld : Accepts conv shape (dynamicObjectMerge below old))
    (acceptsNew : Accepts conv shape (dynamicObjectMerge below new)) :
    Accepts conv shape (dynamicObjectMerge below (dynamicObjectMerge old new)) := by
  intro path point value leads reached
  rcases atPath_merged path isBelow isOld uniqueOld uniqueNew value reached with
    inOld | inNew | ⟨isObject, other, isOther, otherObject, keys⟩
  · exact acceptsOld path point value leads inOld
  · exact acceptsNew path point value leads inNew
  · exact (acceptsOld path point other leads isOther).of_keys otherObject isObject keys

theorem passes_merged {below old : Dynamic} (isBelow : below.isObject = true)
    (isOld : old.isObject = true) (passesOld : Passes (validate conv metaMap (below.merge old).json))
    (passesNew : Passes (validate conv metaMap (below.merge new).json)) :
    Passes (validate conv metaMap (below.merge (old.merge new)).json) := by
  rw [passes_validate (Dynamic.unique _)] at passesOld passesNew ⊢
  exact ⟨(isObject_merge _ _).trans isBelow,
    .merged isBelow isOld old.unique new.unique passesOld.2 passesNew.2⟩

theorem passes_of_same {config config' : Dynamic} (same : Json.Same config.json config'.json)
    (passes : Passes (validate conv metaMap config.json)) :
    Passes (validate conv metaMap config'.json) := by
  rw [passes_validate (Dynamic.unique _)] at passes ⊢
  exact ⟨same.isObject_eq ▸ passes.1, passes.2.of_same same⟩

end ConfigMetadata

/-! ### Stored configs -/

open ConfigMetadata

section

variable {nodeName : String}

theorem nodeConfigWith_congr {overrides overrides' : Dynamic}
    (same : Json.Same overrides.json overrides'.json) :
    Json.Same (helper.nodeConfigWith env nodeName overrides).json
      (helper.nodeConfigWith env nodeName overrides').json := by
  have inside := (Json.Same.refl (((helper.autoNodesOverrides.find nodeName).getD .object).merge
    helper.networkOverrides).json).merge same overrides.unique overrides'.unique
  exact (Json.Same.refl _).merge inside (Dynamic.unique _) (Dynamic.unique _)

theorem passes_nodeConfigWith_merge {old : Dynamic}
    (passesOld : Passes (validate env.conv metaMap (helper.nodeConfigWith env nodeName old).json))
    (passesNew : Passes (validate env.conv metaMap (helper.nodeConfigWith env nodeName new).json)) :
    Passes (validate env.conv metaMap (helper.nodeConfigWith env nodeName (old.merge new)).json) := by
  cases isOld : old.isObject with
  | false =>
    have absorbed : old.merge new = old :=
      Dynamic.ext_json (merge_of_not_isObject (.inl isOld))
    rw [absorbed]
    exact passesOld
  | true =>
    rw [ConfigHelper.nodeConfigWith] at passesOld passesNew ⊢
    generalize ((helper.autoNodesOverrides.find nodeName).getD .object).merge
      helper.networkOverrides = layers at passesOld passesNew ⊢
    cases isLayers : layers.isObject with
    | false =>
      -- Nothing can be merged into the lower layers, so the node overrides do not matter.
      have absorbed : ∀ overrides, layers.merge overrides = layers := fun overrides =>
        Dynamic.ext_json (merge_of_not_isObject (.inl isLayers))
      rw [absorbed] at passesOld ⊢
      exact passesOld
    | true =>
      have regrouped : ∀ overrides : Dynamic, Json.Same
          (((helper.latestBase env).merge layers).merge overrides).json
          ((helper.latestBase env).merge (layers.merge overrides)).json :=
        fun overrides => merge_assoc isLayers layers.unique overrides.unique
      have isBelow : ((helper.latestBase env).merge layers).isObject = true :=
        isObject_merge _ _
      exact passes_of_same (regrouped _) (passes_merged isBelow isOld
        (passes_of_same (regrouped old).symm passesOld)
        (passes_of_same (regrouped new).symm passesNew))

theorem passes_nodeConfigWith_empty
    (passesNew : Passes (validate env.conv metaMap (helper.nodeConfigWith env nodeName new).json)) :
    Passes (validate env.conv metaMap
      (helper.nodeConfigWith env nodeName (Dynamic.object.merge new)).json) := by
  cases isNew : new.isObject with
  | true =>
    exact passes_of_same (nodeConfigWith_congr (empty_merge isNew new.unique).symm) passesNew
  | false =>
    have absorbed : Dynamic.object.merge new = Dynamic.object :=
      Dynamic.ext_json (merge_of_not_isObject (.inr isNew))
    have ignored : helper.nodeConfigWith env nodeName Dynamic.object =
        helper.nodeConfigWith env nodeName new := by
      apply Dynamic.ext_json
      refine congrArg (dynamicObjectMerge _) ?_
      exact (merge_empty _).trans (merge_of_not_isObject (.inr isNew)).symm
    rw [absorbed, ignored]
    exact passesNew

end

/-- The config of every node that has overrides of its own passes the metadata checks. -/
def StoredConfigsPass (env : ConfigEnv) (helper : ConfigHelper) : Prop :=
  ∀ nodeName overrides, helper.nodesOverrides.find nodeName = some overrides →
    ∀ config helper', (buildNodeConfig env (some nodeName) "" none none none none none).run helper =
      .ok config helper' → Passes (validate env.conv helper.nodeConfigMeta config.json)

theorem run_buildNodeConfig_stored (env : ConfigEnv) {nodeName : String} {overrides : Dynamic}
    (found : helper.nodesOverrides.find nodeName = some overrides) :
    (buildNodeConfig env (some nodeName) "" none none none none none).run helper =
      .ok (helper.nodeConfigWith env nodeName overrides) (helper.withBase env) := by
  have layer : nodeLayer (some nodeName) none helper.nodesOverrides = some overrides := found
  show EStateM.Result.ok ((helper.latestBase env).merge
    (helper.getConfigOverridesForNode (some nodeName) none none none)) _ = _
  rw [ConfigHelper.getConfigOverridesForNode, layer]
  rfl

theorem storedConfigsPass_iff {env : ConfigEnv} :
    StoredConfigsPass env helper ↔ ∀ nodeName overrides,
      helper.nodesOverrides.find nodeName = some overrides →
      Passes (validate env.conv helper.nodeConfigMeta
        (helper.nodeConfigWith env nodeName overrides).json) := by
  constructor
  · intro pass nodeName overrides found
    exact pass nodeName overrides found _ _ (run_buildNodeConfig_stored env found)
  · intro pass nodeName overrides found _ _ built
    cases (run_buildNodeConfig_stored env found).symm.trans built
    exact pass nodeName overrides found

theorem StoredConfigsPass.set {env : ConfigEnv} {helper' : ConfigHelper}
    {overrides : String} {topologyNodeNames : List String} {request : Dynamic}
    (working : env.Working) (pass : StoredConfigsPass env helper)
    (accepted : NodesAccepted env helper overrides topologyNodeNames request)
    (isSet : NodesSet env helper helper' false request) : StoredConfigsPass env helper' := by
  rw [storedConfigsPass_iff] at pass ⊢
  obtain ⟨full, written, _, finds⟩ := isSet.nodesOverrides
  obtain ⟨_, readBack, same⟩ := working full
  cases written.symm.trans readBack
  have sameConfig : ∀ nodeName overrides, helper'.nodeConfigWith env nodeName overrides =
      helper.nodeConfigWith env nodeName overrides := by
    intro nodeName overrides
    rw [ConfigHelper.nodeConfigWith, ConfigHelper.nodeConfigWith, isSet.latestBase,
      isSet.autoNodesOverrides, isSet.networkOverrides]
  intro nodeName overrides found
  rw [sameConfig, isSet.nodeConfigMeta]
  -- The overrides that were read back are those that were written, up to the order of members.
  obtain ⟨written, isWritten, sameOverrides⟩ : ∃ written, full.find nodeName = some written ∧
      Json.Same written.json overrides.json := by
    rcases (same.find nodeName).cases with ⟨_, absent⟩ | ⟨_, _, isOne, isTwo, sameTwo⟩
    · rw [Dynamic.find_eq_some_iff.mp found] at absent
      cases absent
    · rw [Dynamic.find_eq_some_iff.mp found] at isTwo
      rw [← Dynamic.map_json_find, map_eq_some_iff] at isOne
      obtain ⟨written, isWritten, rfl⟩ := isOne
      cases isTwo
      exact ⟨written, isWritten, sameTwo⟩
  refine passes_of_same (nodeConfigWith_congr sameOverrides) ?_
  rw [finds nodeName] at isWritten
  cases requested : request.find nodeName with
  | none =>
    rw [requested] at isWritten
    exact pass nodeName written isWritten
  | some new =>
    rw [requested] at isWritten
    have merged : updatedNodeConfig false (helper.nodesOverrides.find nodeName) new = written :=
      some.inj isWritten
    obtain ⟨result, validated, _⟩ := (accepted.each nodeName new requested).passed.returned
    have passesNew : Passes (validate env.conv helper.nodeConfigMeta
        (helper.nodeConfigWith env nodeName new).json) := ⟨result, validated⟩
    rw [← merged]
    cases isOld : helper.nodesOverrides.find nodeName with
    | none => exact passes_nodeConfigWith_empty passesNew
    | some old => exact passes_nodeConfigWith_merge (pass nodeName old isOld) passesNew

/-- Override layers that pass over the same layers pass merged; so a request whose overrides were
validated leaves only configs that pass. -/
theorem validation_closed_under_merging (conv : Conversions) (metaMap : MetaMap)
    (c old new : JsonObject) (env : ConfigEnv) (helper helper' : ConfigHelper)
    (overrides errorMsg : String) (topologyNodeNames : List String) :
    ((∃ result, validate conv metaMap (c.merge old).toJson = .ok result) →
      (∃ result, validate conv metaMap (c.merge new).toJson = .ok result) →
      ∃ result, validate conv metaMap (c.merge (old.merge new)).toJson = .ok result) ∧
    (env.Working → StoredConfigsPass env helper →
      (validateAndSetNewNodeOverrides env overrides topologyNodeNames false).run helper =
        .ok errorMsg helper' → StoredConfigsPass env helper') := by
  constructor
  · intro passesOld passesNew
    change Passes (validate conv metaMap (c.merge old).toDynamic.json) at passesOld
    change Passes (validate conv metaMap (c.merge new).toDynamic.json) at passesNew
    change Passes (validate conv metaMap (c.merge (old.merge new)).toDynamic.json)
    rw [JsonObject.toDynamic_merge] at passesOld passesNew ⊢
    rw [JsonObject.toDynamic_merge]
    exact passes_merged rfl rfl passesOld passesNew
  · intro working pass returned
    obtain ⟨_, accepted, isSet⟩ := validateAndSetNewNodeOverrides_ok returned
    exact pass.set working accepted isSet

def channelMeta : MetaMap :=
  [("radio", .level [("channel", .param ⟨.integer (some ⟨some [⟨1, 4⟩], none⟩), false, false, false⟩)])]

def oneChannel : ConfigHelper := { oneOverride with nodeConfigMeta := channelMeta }

theorem storedConfigsPass_oneChannel : StoredConfigsPass (.parsing golayRequest) oneChannel := by
  intro _ _ found _ _ built
  obtain ⟨rfl, _⟩ := find_singleton (Dynamic.find_eq_some_iff.mp found)
  cases built
  exact ⟨_, rfl⟩

def setChannel (channel : Int) : JsonObject :=
  ⟨[("radio", .object [("channel", .int channel)])], rfl⟩

/-- Two channels that pass one by one pass when they are merged. -/
theorem validation_closed_under_merging_channel :
    (∃ result, validate ConfigEnv.withoutFiles.conv channelMeta
      (JsonObject.empty.merge ((setChannel 1).merge (setChannel 2))).toJson = .ok result) ∧
    ∃ errorMsg helper',
      (validateAndSetNewNodeOverrides (.parsing golayRequest) "" ["node"] false).run oneChannel =
        .ok errorMsg helper' ∧ StoredConfigsPass (.parsing golayRequest) helper' :=
  ⟨(validation_closed_under_merging ConfigEnv.withoutFiles.conv channelMeta .empty (setChannel 1)
      (setChannel 2) .withoutFiles oneChannel oneChannel "" "" []).1 ⟨_, rfl⟩ ⟨_, rfl⟩,
    _, _, rfl, (validation_closed_under_merging ConfigEnv.withoutFiles.conv channelMeta .empty .empty
      .empty (.parsing golayRequest) oneChannel _ "" _ ["node"]).2
      (ConfigEnv.working_parsing golayRequest) storedConfigsPass_oneChannel rfl⟩

end Terragraph
