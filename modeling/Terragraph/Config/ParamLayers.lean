/-
Module: Terragraph.Config.ParamLayers
Purpose: How `ConfigHelper` reads and writes firmware parameters in the override layers; layers with
  numbers for them are a store with three levels.
Trusted boundary: human-reviewed embedding of `ConfigHelper.cpp`
Main exports: FwParams, ParamLayers, foldl_onto_of_sets
-/
import Terragraph.Config.Overrides

namespace Terragraph

open Guarded List AssocList

/-! ### Reading -/

/-- What ends the work on the config of links before it returns. -/
inductive LinkConfigError where
  /-- `folly::TypeError`: a value that is used as an object is none. -/
  | typeError
  /-- An exception leaves a `noexcept` function. -/
  | terminated
  /-- An empty optional is read. -/
  | emptyOptional
  /-- `std::invalid_argument`. -/
  | invalidArgument (what : String)
deriving DecidableEq, Repr

/-- The objects of a node config that hold firmware parameters. -/
inductive FwParams where
  | radioBase
  | radio (macAddr : String)
  | linkBase
  | link (responderMac : String)
deriving DecidableEq

/-- The path of the object in the config of a node. -/
def FwParams.path : FwParams → List String
  | .radioBase => ["radioParamsBase", "fwParams"]
  | .radio macAddr => ["radioParamsOverride", macAddr, "fwParams"]
  | .linkBase => ["linkParamsBase", "fwParams"]
  | .link responderMac => ["linkParamsOverride", responderMac, "fwParams"]

/-- The parameters that the controller assigns. -/
inductive FwKey where
  | polarity
  | channel
  | txGolayIdx
  | rxGolayIdx
  | controlSuperframe
deriving DecidableEq

/-- The key of a parameter. -/
def FwKey.name : FwKey → String
  | .polarity => "polarity"
  | .channel => "channel"
  | .txGolayIdx => "txGolayIdx"
  | .rxGolayIdx => "rxGolayIdx"
  | .controlSuperframe => "controlSuperframe"

theorem FwKey.name_inj {key other : FwKey} : key.name = other.name ↔ key = other := by
  cases key <;> cases other <;> decide

/-- `ConfigHelper::getDynamicObjectAtPath` on a copy.  `setDefault` throws on a value that is no
object. -/
def getDynamicObjectAtPath : List String → Json → Except LinkConfigError Json
  | [], obj => .ok obj
  | key :: path, obj =>
    if obj.isObject then getDynamicObjectAtPath path ((obj.find key).getD (.object []))
    else .error .typeError

/-- `ConfigHelper::maybeReadInt`. -/
def maybeReadInt (key : String) (obj : Json) : Except LinkConfigError (Option Int) :=
  if obj.isObject then
    match obj.find key with
    | some (.int value) => .ok (some value)
    | _ => .ok none
  else .error .typeError

def readParam (path : List String) (key : String) (config : Json) :
    Except LinkConfigError (Option Int) := do
  maybeReadInt key (← getDynamicObjectAtPath path config)

/-- A parameter as the getters of `ConfigHelper` see it, of every node and in every object. -/
abbrev ParamReader := String → FwParams → Except LinkConfigError (Option Int)

/-- The overrides from which the getters read: the user's (network and node layers), or all. -/
def ConfigHelper.overridesOf (helper : ConfigHelper) (userConfiguredOnly : Bool)
    (nodeName : String) : Dynamic :=
  helper.getConfigOverridesForNode (some nodeName)
    (if userConfiguredOnly then some .object else none) none none

/-- How the getters read a parameter. -/
def ConfigHelper.param (helper : ConfigHelper) (userConfiguredOnly : Bool) (key : FwKey) :
    ParamReader :=
  fun nodeName params =>
    readParam params.path key.name (helper.overridesOf userConfiguredOnly nodeName).json

/-! ### Writing -/

def Dynamic.int (value : Int) : Dynamic := ⟨.int value, rfl⟩

/-- Erasing a key of an object. -/
def Dynamic.erase (target : Dynamic) (key : String) : Dynamic where
  json := .object (remove key target.json.members)
  unique := by
    apply Json.uniqueKeys_object_iff.mpr
    refine ⟨nodup_keys_remove (Json.nodup_of_uniqueKeys target.unique), ?_⟩
    intro member inside
    exact Json.uniqueKeys_of_member target.unique (mem_filter.mp inside).1

/-- Changing the object that `getDynamicObjectAtPath` returns. -/
def Dynamic.updateAtPath (update : Dynamic → Except LinkConfigError Dynamic) :
    List String → Dynamic → Except LinkConfigError Dynamic
  | [], obj => update obj
  | key :: path, obj =>
    if obj.isObject then do
      let inner ← updateAtPath update path ((obj.find key).getD .object)
      return obj.insert key inner
    else .error .typeError

/-- Assigning to a key of an object, or erasing the key. -/
def Dynamic.setParam (target : Dynamic) (entry : FwKey × Option Int) : Dynamic :=
  match entry.2 with
  | some value => target.insert entry.1.name (.int value)
  | none => target.erase entry.1.name

def Dynamic.setParams (values : List (FwKey × Option Int)) (obj : Dynamic) :
    Except LinkConfigError Dynamic :=
  if obj.isObject then .ok (values.foldl Dynamic.setParam obj) else .error .typeError

/-- New values for parameters of a node; a parameter without a value is erased. -/
structure ParamWrite where
  nodeName : String
  params : FwParams
  values : List (FwKey × Option Int)
  distinct : (keys values).Nodup

/-- Writing parameters into the overrides of all nodes. -/
def ParamWrite.apply (nodesOverrides : Dynamic) (write : ParamWrite) :
    Except LinkConfigError Dynamic :=
  nodesOverrides.updateAtPath (Dynamic.setParams write.values)
    (write.nodeName :: write.params.path)

abbrev LinkConfigM := EStateM LinkConfigError ConfigHelper

/-- `ConfigHelper::setNewNodeOverrides` or `setNewAutoNodeOverrides`. -/
def setNewOverrides (env : ConfigEnv) (forUserConfig : Bool) (overrides : Dynamic) :
    LinkConfigM Bool :=
  match env.storeJsonFile overrides with
  | .error _ => return false
  | .ok stored => do
    modify fun helper =>
      if forUserConfig then { helper with nodesOverrides := stored }
      else { helper with autoNodesOverrides := stored }
    return true

/-- How the setters of `ConfigHelper` write: into a copy of the layer, which is then stored. -/
def setParams (env : ConfigEnv) (forUserConfig : Bool) (writes : List ParamWrite) :
    LinkConfigM Bool := do
  let newNodesOverrides ← check fun helper =>
    writes.foldlM ParamWrite.apply
      (if forUserConfig then helper.nodesOverrides else helper.autoNodesOverrides)
  setNewOverrides env forUserConfig newNodesOverrides

/-! ### What is shown at a path -/

def shownInt : Option (Option Json) → Option Int
  | some (some (.int value)) => some value
  | _ => none

def passable : Option (Option Json) → Bool
  | some (some _) => false
  | _ => true

def Json.isOpen (path : List String) (json : Json) : Bool :=
  path.inits.all fun init => passable (json.peek init)

variable {path : List String}

theorem Json.isOpen_iff {json : Json} :
    json.isOpen path = true ↔ ∀ init, init <+: path → passable (json.peek init) = true := by
  simp [isOpen]

theorem passable_leaf (json : Json) : passable (some json.leaf) = json.isObject := by
  rw [Json.leaf]
  cases json.isObject with
  | true | false => rfl

theorem Json.isOpen_nil (json : Json) : json.isOpen [] = json.isObject := by
  simp [isOpen, passable_leaf]

variable (key : String)

theorem Json.peek_empty_cons (path : List String) :
    (Json.object []).peek (key :: path) = none := rfl

theorem Json.isOpen_empty (path : List String) : (Json.object []).isOpen path = true := by
  rw [isOpen_iff]
  intro init _
  cases init with
  | nil | cons key rest => rfl

theorem Json.peek_getD_empty {value : Option Json} (nonempty : path ≠ []) :
    (value.getD (.object [])).peek path = value.bind (peek path) := by
  cases value with
  | none =>
    cases path with
    | nil => exact absurd rfl nonempty
    | cons => rfl
  | some => rfl

theorem Json.passable_peek_cons (path : List String) (json : Json) :
    passable (json.peek (key :: path)) =
      passable (((json.find key).getD (.object [])).peek path) := by
  rw [peek_cons]
  cases json.find key with
  | none =>
    cases path with
    | nil | cons => rfl
  | some => rfl

theorem Json.isOpen_cons (path : List String) (json : Json) :
    json.isOpen (key :: path) =
      (json.isObject && ((json.find key).getD (.object [])).isOpen path) := by
  simp only [isOpen, inits_cons, all_cons, all_map, peek_nil, passable_leaf, Function.comp_def,
    passable_peek_cons]

/-- Reading a parameter depends only on what is shown along its path. -/
theorem readParam_eq (path : List String) (key : String) (config : Json) :
    readParam path key config =
      if config.isOpen path then .ok (shownInt (config.peek (path ++ [key])))
      else .error .typeError := by
  induction path generalizing config with
  | nil =>
    rw [Json.isOpen_nil]
    show maybeReadInt key config = _
    rw [maybeReadInt]
    split
    · rw [nil_append, Json.peek_cons]
      cases config.find key with
      | none => rfl
      | some value =>
        cases value with
        | _ => rfl
    · rfl
  | cons next path ih =>
    rw [Json.isOpen_cons]
    cases isObject : config.isObject with
    | false =>
      show (do maybeReadInt key (← getDynamicObjectAtPath (next :: path) config)) = _
      rw [getDynamicObjectAtPath, if_neg (by simp [isObject])]
      rfl
    | true =>
      have step : readParam (next :: path) key config =
          readParam path key ((config.find next).getD (.object [])) := by
        show (do maybeReadInt key (← getDynamicObjectAtPath (next :: path) config)) = _
        rw [getDynamicObjectAtPath, if_pos isObject]
        rfl
      rw [step, ih, Json.peek_getD_empty (by simp), cons_append,
        Json.peek_cons, Bool.true_and]

theorem readParam_congr {config config' : Json} (same : Json.Same config config')
    (path : List String) (key : String) : readParam path key config = readParam path key config' := by
  have opened : config.isOpen path = config'.isOpen path := by
    rw [Json.isOpen]
    congr 1
    funext init
    rw [same init]
  rw [readParam_eq, readParam_eq, same, opened]

open Json

/-! ### Numbers where parameters are expected -/

def Numeric (shown : Option (Option Json)) : Prop :=
  shown = none ∨ ∃ value, shown = some (some (.int value))

variable {lower upper : Option (Option Json)}

theorem Numeric.stacked (lowerNumeric : Numeric lower) (upperNumeric : Numeric upper) :
    Numeric (stacked lower upper) := by
  rcases upperNumeric with rfl | ⟨value, rfl⟩
  · rw [stacked_none]
    exact lowerNumeric
  · rcases lowerNumeric with rfl | ⟨_, rfl⟩
    · exact .inr ⟨value, rfl⟩
    · exact .inr ⟨value, rfl⟩

theorem Numeric.shownInt_stacked (lowerNumeric : Numeric lower) (upperNumeric : Numeric upper) :
    shownInt (Terragraph.stacked lower upper) = (shownInt upper).or (shownInt lower) := by
  rcases upperNumeric with rfl | ⟨_, rfl⟩
  · rfl
  · rcases lowerNumeric with rfl | ⟨_, rfl⟩
    · rfl
    · rfl

theorem passable_stacked (lowerPassable : passable lower = true)
    (upperPassable : passable upper = true) : passable (stacked lower upper) = true := by
  rcases lower with _ | _ | leaf
  · rw [none_stacked]
    exact upperPassable
  · rw [object_stacked]
    rfl
  · cases lowerPassable

/-- Below a path, objects lead to the parameters, and these are numbers. -/
structure Json.Fits (root : List String) (json : Json) : Prop where
  opened : ∀ params : FwParams, json.isOpen (root ++ params.path) = true
  numeric : ∀ (params : FwParams) (key : FwKey),
    Numeric (json.peek (root ++ params.path ++ [key.name]))

theorem Json.Fits.empty (root : List String) : (object []).Fits root where
  opened params := isOpen_empty _
  numeric params key := by
    left
    cases root <;> cases params <;> rfl

theorem Json.Fits.isObject {json : Json} (fits : json.Fits []) : json.isObject = true := by
  have opened := isOpen_iff.mp (fits.opened .radioBase) [] nil_prefix
  rw [peek_nil, passable_leaf] at opened
  exact opened

theorem Json.Fits.merge {below above : Json} (fitsBelow : below.Fits []) (fitsAbove : above.Fits [])
    (unique : above.uniqueKeys = true) : (dynamicObjectMerge below above).Fits [] ∧
      ∀ (params : FwParams) (key : FwKey),
        shownInt ((dynamicObjectMerge below above).peek (params.path ++ [key.name])) =
          (shownInt (above.peek (params.path ++ [key.name]))).or
            (shownInt (below.peek (params.path ++ [key.name]))) := by
  have isObject := fitsBelow.isObject
  refine ⟨⟨?_, ?_⟩, ?_⟩
  · intro params
    apply isOpen_iff.mpr
    intro init within
    rw [peek_merge isObject unique]
    exact passable_stacked (isOpen_iff.mp (fitsBelow.opened params) init within)
      (isOpen_iff.mp (fitsAbove.opened params) init within)
  · intro params key
    rw [peek_merge isObject unique]
    exact (fitsBelow.numeric params key).stacked (fitsAbove.numeric params key)
  · intro params key
    rw [peek_merge isObject unique]
    exact (fitsBelow.numeric params key).shownInt_stacked (fitsAbove.numeric params key)

theorem readParam_of_fits {config : Json} (fits : config.Fits []) (params : FwParams)
    (key : FwKey) :
    readParam params.path key.name config = .ok (shownInt (config.peek (params.path ++ [key.name])))
    := by
  have opened := fits.opened params
  rw [nil_append] at opened
  rw [readParam_eq, if_pos opened]

/-! ### The three layers -/

/-- The parameters in the automatic, the network and the node layer. -/
@[ext]
structure ParamLayers where
  auto : String → FwParams → FwKey → Option Int
  network : FwParams → FwKey → Option Int
  node : String → FwParams → FwKey → Option Int

def ParamLayers.user (layers : ParamLayers) (key : FwKey) (nodeName : String) (params : FwParams) :
    Option Int :=
  (layers.node nodeName params key).or (layers.network params key)

def ParamLayers.all (layers : ParamLayers) (key : FwKey) (nodeName : String) (params : FwParams) :
    Option Int :=
  (layers.user key nodeName params).or (layers.auto nodeName params key)

def paramsOf (tree : Json) (nodeName : String) (params : FwParams) (key : FwKey) : Option Int :=
  shownInt (tree.peek (nodeName :: params.path ++ [key.name]))

/-- The parameters of a config helper. -/
def ConfigHelper.layers (helper : ConfigHelper) : ParamLayers where
  auto := paramsOf helper.autoNodesOverrides.json
  network params key := shownInt (helper.networkOverrides.json.peek (params.path ++ [key.name]))
  node := paramsOf helper.nodesOverrides.json

/-- All layers have numbers where parameters are expected, as is checked before they are accepted.
-/
structure ConfigHelper.Typed (helper : ConfigHelper) : Prop where
  auto : ∀ nodeName, helper.autoNodesOverrides.json.Fits [nodeName]
  network : helper.networkOverrides.json.Fits []
  node : ∀ nodeName, helper.nodesOverrides.json.Fits [nodeName]

theorem ConfigHelper.Typed.empty : ({} : ConfigHelper).Typed :=
  ⟨fun nodeName => .empty [nodeName], .empty [], fun nodeName => .empty [nodeName]⟩

theorem Dynamic.json_getD_find (obj : Dynamic) (key : String) :
    ((obj.find key).getD .object).json = (obj.json.find key).getD (.object []) := by
  rw [← map_json_find]
  cases obj.find key with
  | none | some value => rfl

theorem fits_nodeLayer {tree : Dynamic} {nodeName : String} (fits : tree.json.Fits [nodeName]) :
    (((nodeLayer (some nodeName) none tree).getD .object).json).Fits [] ∧
      ∀ (params : FwParams) (key : FwKey),
        shownInt (((nodeLayer (some nodeName) none tree).getD .object).json.peek
          (params.path ++ [key.name])) = paramsOf tree.json nodeName params key := by
  have found : ((nodeLayer (some nodeName) none tree).getD .object).json =
      (tree.json.find nodeName).getD (.object []) := tree.json_getD_find nodeName
  have peeked : ∀ path, path ≠ [] → ((tree.json.find nodeName).getD (.object [])).peek path =
        tree.json.peek (nodeName :: path) := by
    intro _ nonempty
    rw [peek_getD_empty nonempty, peek_cons]
  have nonempty : ∀ (params : FwParams) (key : FwKey), params.path ++ [key.name] ≠ [] := by
    intro params key
    simp
  rw [found]
  refine ⟨⟨?_, ?_⟩, ?_⟩
  · intro params
    have opened := fits.opened params
    rw [cons_append, isOpen_cons, Bool.and_eq_true] at opened
    exact opened.2
  · intro params key
    rw [nil_append, peeked _ (nonempty params key)]
    exact fits.numeric params key
  · intro params key
    rw [peeked _ (nonempty params key)]
    rfl

theorem mergeOption_eq (config : Dynamic) (isObject : config.isObject = true)
    (layer : Option Dynamic) (path : List String) :
    (config.mergeOption layer).json.peek path =
      (dynamicObjectMerge config.json (layer.getD .object).json).peek path := by
  cases layer with
  | some => rfl
  | none =>
    rw [peek_merge isObject (Option.getD none Dynamic.object).unique]
    change config.json.peek path = stacked (config.json.peek path) ((object []).peek path)
    cases path with
    | nil =>
      rw [peek_nil, leaf_of_isObject isObject]
      rfl
    | cons => rw [peek_empty_cons, stacked_none]

variable {helper : ConfigHelper}

theorem readParam_merged (typed : helper.Typed) {auto : Dynamic}
    (fits : auto.json.Fits []) (nodeName : String) (params : FwParams) (key : FwKey) :
    readParam params.path key.name ((auto.merge helper.networkOverrides).mergeOption
          (nodeLayer (some nodeName) none helper.nodesOverrides)).json =
      .ok ((helper.layers.user key nodeName params).or
        (shownInt (auto.json.peek (params.path ++ [key.name])))) := by
  obtain ⟨lowerFits, lowerNumber⟩ := fits.merge typed.network helper.networkOverrides.unique
  obtain ⟨upperFits, upperNumber⟩ := fits_nodeLayer (typed.node nodeName)
  obtain ⟨merged, number⟩ := lowerFits.merge upperFits
    ((nodeLayer (some nodeName) none helper.nodesOverrides).getD .object).unique
  have same : Json.Same ((auto.merge helper.networkOverrides).mergeOption
      (nodeLayer (some nodeName) none helper.nodesOverrides)).json
      (dynamicObjectMerge (auto.merge helper.networkOverrides).json
        ((nodeLayer (some nodeName) none helper.nodesOverrides).getD .object).json) :=
    mergeOption_eq (auto.merge _) lowerFits.isObject _
  rw [readParam_congr same]
  refine (readParam_of_fits merged params key).trans ?_
  rw [number, lowerNumber, upperNumber, ← Option.or_assoc]
  rfl

namespace ConfigHelper.Typed

variable (typed : helper.Typed)

include typed

theorem param_user (key : FwKey) (nodeName : String) (params : FwParams) :
    helper.param true key nodeName params = .ok (helper.layers.user key nodeName params) := by
  have fits : Dynamic.object.json.Fits [] := Json.Fits.empty []
  have read := readParam_merged typed fits nodeName params key
  have nothing : shownInt (Dynamic.object.json.peek (params.path ++ [key.name])) = none := by
    cases params <;> rfl
  rw [nothing, Option.or_none] at read
  exact read

theorem param_all (key : FwKey) (nodeName : String) (params : FwParams) :
    helper.param false key nodeName params = .ok (helper.layers.all key nodeName params) := by
  obtain ⟨fits, number⟩ := fits_nodeLayer (typed.auto nodeName)
  have read := readParam_merged typed fits nodeName params key
  rw [number] at read
  exact read

end ConfigHelper.Typed

/-! ### After a write -/

variable {key} {params other : FwParams}

theorem FwParams.eq_of_prefix (within : params.path <+: other.path ++ [key]) : params = other := by
  cases params with
  | _ =>
    cases other with
    | _ => simp_all [path]

theorem FwParams.not_prefix (apart : params ≠ other) :
    ¬ other.path ++ [key] <+: params.path := by
  intro within
  cases params with
  | _ =>
    cases other with
    | _ => simp_all [path]

variable {values : List (FwKey × Option Int)}

namespace Dynamic

variable (target : Dynamic)

theorem peek_insert_cons (value : Dynamic) (other : String) (path : List String) :
    (target.insert key value).json.peek (other :: path) =
      if key = other then value.json.peek path else target.json.peek (other :: path) := by
  rw [peek_cons, peek_cons, ← map_json_find, ← map_json_find, find_insert]
  split
  · rfl
  · rfl

theorem peek_erase (other : String) : (target.erase key).json.peek [other] =
      if other = key then none else target.json.peek [other] := by
  rw [peek_cons, peek_cons, erase, find_object, find_remove]
  split
  · rfl
  · rfl

theorem peek_setParam (entry : FwKey × Option Int) (key : FwKey) :
    (target.setParam entry).json.peek [key.name] =
      if entry.1 = key then entry.2.map fun value => some (.int value)
      else target.json.peek [key.name] := by
  obtain ⟨_, value⟩ := entry
  unfold setParam
  cases value with
  | some =>
    rw [peek_insert_cons]
    simp only [FwKey.name_inj]
    rfl
  | none =>
    rw [peek_erase]
    simp only [FwKey.name_inj, eq_comm]
    rfl

theorem peek_setParams (distinct : (keys values).Nodup) (obj : Dynamic) (key : FwKey) :
    (values.foldl setParam obj).json.peek [key.name] = match AssocList.find key values with
      | some value => value.map fun value => some (.int value)
      | none => obj.json.peek [key.name] := by
  induction values generalizing obj with
  | nil => rfl
  | cons entry _ ih =>
    obtain ⟨fresh, distinct⟩ := nodup_cons.mp distinct
    rw [foldl_cons, ih distinct, AssocList.find, peek_setParam]
    by_cases here : entry.1 = key
    · rw [find_eq_none_of_notMem (here ▸ fresh), if_pos here, if_pos here]
    · rw [if_neg here, if_neg here]

theorem isObject_setParams {obj : Dynamic}
    (isObject : obj.isObject = true) : (values.foldl setParam obj).isObject = true := by
  induction values generalizing obj with
  | nil => exact isObject
  | cons entry _ ih =>
    apply ih
    unfold setParam
    cases entry.2 <;> rfl

end Dynamic

/-- Some keys of the object at a path have been assigned to or erased. -/
structure Written (path : List String) (values : List (FwKey × Option Int)) (before after : Json) :
    Prop where
  along : ∀ init, init <+: path → after.peek init = some none
  entry : ∀ key : FwKey, after.peek (path ++ [key.name]) =
    match find key values with
    | some value => value.map fun value => some (.int value)
    | none => before.peek (path ++ [key.name])
  apart : ∀ other, ¬ other <+: path → ¬ path <+: other → after.peek other = before.peek other

theorem Written.cons {obj inner : Dynamic}
    (written : Written path values ((obj.find key).getD .object).json inner.json) :
    Written (key :: path) values obj.json (obj.insert key inner).json where
  along init within := by
    cases init with
    | nil => rfl
    | cons _ rest =>
      obtain ⟨rfl, inside⟩ := cons_prefix_cons.mp within
      rw [Dynamic.peek_insert_cons, if_pos rfl, written.along rest inside]
  entry name := by
    rw [cons_append, Dynamic.peek_insert_cons, if_pos rfl, written.entry]
    cases find name values with
    | some => rfl
    | none =>
      rw [peek_cons, Dynamic.json_getD_find, peek_getD_empty (by simp)]
  apart other notInside notBelow := by
    cases other with
    | nil => exact absurd nil_prefix notInside
    | cons next rest =>
      rw [Dynamic.peek_insert_cons]
      split
      · next same =>
        subst same
        have notInit : ¬ rest <+: path := fun within =>
          notInside (cons_prefix_cons.mpr ⟨rfl, within⟩)
        have notPath : ¬ path <+: rest := fun below =>
          notBelow (cons_prefix_cons.mpr ⟨rfl, below⟩)
        have nonempty : rest ≠ [] := by
          rintro rfl
          exact notInit nil_prefix
        rw [written.apart rest notInit notPath, Dynamic.json_getD_find,
          peek_getD_empty nonempty, peek_cons]
      · rfl

theorem updateAtPath_setParams (distinct : (keys values).Nodup) {obj : Dynamic}
    (opened : obj.json.isOpen path = true) :
    ∃ obj', obj.updateAtPath (Dynamic.setParams values) path = .ok obj' ∧
      Written path values obj.json obj'.json := by
  induction path generalizing obj with
  | nil =>
    rw [isOpen_nil] at opened
    refine ⟨_, if_pos opened, ?_, ?_, ?_⟩
    · intro _ within
      rw [prefix_nil.mp within]
      exact congrArg some (leaf_of_isObject (Dynamic.isObject_setParams opened))
    · intro key
      exact Dynamic.peek_setParams distinct obj key
    · intro _ _ notBelow
      exact absurd nil_prefix notBelow
  | cons key _ ih =>
    rw [isOpen_cons, Bool.and_eq_true, ← Dynamic.json_getD_find] at opened
    obtain ⟨inner, updated, written⟩ := ih opened.2
    have isObject : obj.isObject = true := opened.1
    refine ⟨obj.insert key inner, ?_, written.cons⟩
    rw [Dynamic.updateAtPath, if_pos isObject, updated]
    rfl

/-- What a write does to a layer. -/
def ParamWrite.onto (layer : String → FwParams → FwKey → Option Int) (write : ParamWrite) :
    String → FwParams → FwKey → Option Int :=
  fun nodeName params key =>
    if nodeName = write.nodeName ∧ params = write.params then
      (find key write.values).getD (layer nodeName params key)
    else layer nodeName params key

section Written

variable {write : ParamWrite} {before after : Json}
  (written : Written (write.nodeName :: write.params.path) write.values before after)

include written

theorem Written.peek_param (nodeName : String) (params : FwParams) (key : FwKey) :
    after.peek (nodeName :: params.path ++ [key.name]) =
      if nodeName = write.nodeName ∧ params = write.params then
        match find key write.values with
        | some value => value.map fun value => some (.int value)
        | none => before.peek (nodeName :: params.path ++ [key.name])
      else before.peek (nodeName :: params.path ++ [key.name]) := by
  split
  · next here =>
    rw [here.1, here.2]
    exact written.entry key
  · next elsewhere =>
    apply written.apart
    · intro inside
      obtain ⟨rfl, within⟩ := cons_prefix_cons.mp inside
      exact FwParams.not_prefix (fun same => elsewhere ⟨rfl, same.symm⟩) within
    · intro outside
      obtain ⟨rfl, below⟩ := cons_prefix_cons.mp outside
      exact elsewhere ⟨rfl, (FwParams.eq_of_prefix below).symm⟩

theorem Written.paramsOf_eq : paramsOf after = write.onto (paramsOf before) := by
  funext nodeName params key
  unfold paramsOf ParamWrite.onto
  rw [written.peek_param]
  split
  · cases find key write.values with
    | none => rfl
    | some value =>
      cases value with
      | none | some value => rfl
  · rfl

theorem Written.fits (fits : ∀ nodeName, before.Fits [nodeName]) :
    ∀ nodeName, after.Fits [nodeName] := by
  intro nodeName
  constructor
  · intro params
    apply isOpen_iff.mpr
    intro init within
    have old := isOpen_iff.mp ((fits nodeName).opened params) init within
    by_cases inside : init <+: write.nodeName :: write.params.path
    · rw [written.along init inside]
      rfl
    · rw [written.apart init inside]
      · exact old
      · intro below
        obtain ⟨rfl, longer⟩ := cons_prefix_cons.mp (below.trans within)
        have same : write.params = params :=
          FwParams.eq_of_prefix (longer.trans (prefix_append _ [""]))
        exact inside (same ▸ within)
  · intro params key
    have old := (fits nodeName).numeric params key
    change Numeric (after.peek (nodeName :: params.path ++ [key.name]))
    rw [written.peek_param]
    split
    · cases find key write.values with
      | none => exact old
      | some value =>
        cases value with
        | none => exact .inl rfl
        | some value => exact .inr ⟨value, rfl⟩
    · exact old

end Written

/-! ### Writing to a layer -/

/-- Some writes into one layer. -/
def ParamLayers.put (layers : ParamLayers) (forUserConfig : Bool) (writes : List ParamWrite) :
    ParamLayers :=
  if forUserConfig then { layers with node := writes.foldl ParamWrite.onto layers.node }
  else { layers with auto := writes.foldl ParamWrite.onto layers.auto }

theorem apply_all (writes : List ParamWrite) :
    ∀ tree : Dynamic, (∀ nodeName, tree.json.Fits [nodeName]) →
      ∃ tree', writes.foldlM ParamWrite.apply tree = .ok tree' ∧
        (∀ nodeName, tree'.json.Fits [nodeName]) ∧
        paramsOf tree'.json = writes.foldl ParamWrite.onto (paramsOf tree.json) := by
  induction writes with
  | nil =>
    intro tree fits
    exact ⟨tree, rfl, fits, rfl⟩
  | cons write _ ih =>
    intro _ fits
    obtain ⟨first, applied, written⟩ :=
      updateAtPath_setParams write.distinct ((fits write.nodeName).opened write.params)
    obtain ⟨tree', ran, fits', shown⟩ := ih first (written.fits fits)
    refine ⟨tree', ?_, fits', ?_⟩
    · exact except_bind_eq_ok.mpr ⟨first, applied, ran⟩
    · rw [shown, written.paramsOf_eq, foldl_cons]

variable {first second : Json}

theorem Json.Same.fits (same : Json.Same first second) {root : List String}
    (fits : first.Fits root) : second.Fits root where
  opened params := by
    have opened := fits.opened params
    rw [isOpen_iff] at opened ⊢
    intro init within
    rw [← same init]
    exact opened init within
  numeric params key := by
    rw [← same]
    exact fits.numeric params key

theorem Json.Same.paramsOf_eq (same : Json.Same first second) :
    paramsOf first = paramsOf second := by
  funext nodeName params key
  unfold paramsOf
  rw [same]

theorem run_setParams {env : ConfigEnv} (working : env.Working)
    (typed : helper.Typed) (forUserConfig : Bool) (writes : List ParamWrite) :
    ∃ helper', (setParams env forUserConfig writes).run helper = .ok true helper' ∧
      helper'.Typed ∧ helper'.layers = helper.layers.put forUserConfig writes := by
  cases forUserConfig with
  | true =>
    obtain ⟨tree, ran, fits, shown⟩ := apply_all writes helper.nodesOverrides typed.node
    obtain ⟨stored, written, same⟩ := working tree
    refine ⟨{ helper with nodesOverrides := stored }, ?_, ?_, ?_⟩
    · refine check_bind_eq_ok.mpr ⟨tree, ran, ?_⟩
      rw [setNewOverrides, written]
      rfl
    · exact ⟨typed.auto, typed.network, fun nodeName => same.fits (fits nodeName)⟩
    · exact congrArg (ParamLayers.mk _ _) (same.paramsOf_eq.symm.trans shown)
  | false =>
    obtain ⟨tree, ran, fits, shown⟩ := apply_all writes helper.autoNodesOverrides typed.auto
    obtain ⟨stored, written, same⟩ := working tree
    refine ⟨{ helper with autoNodesOverrides := stored }, ?_, ?_, ?_⟩
    · refine check_bind_eq_ok.mpr ⟨tree, ran, ?_⟩
      rw [setNewOverrides, written]
      rfl
    · exact ⟨fun nodeName => same.fits (fits nodeName), typed.network, typed.node⟩
    · exact congrArg (ParamLayers.mk · _ _) (same.paramsOf_eq.symm.trans shown)

/-! ### Programs that write -/

def Updates (body : LinkConfigM PUnit) (update : ParamLayers → ParamLayers) : Prop :=
  ∀ helper : ConfigHelper, helper.Typed → ∃ helper', body.run helper = .ok ⟨⟩ helper' ∧
    helper'.Typed ∧ helper'.layers = update helper.layers

theorem Updates.pure : Updates (Pure.pure ⟨⟩) id :=
  fun helper typed => ⟨helper, rfl, typed, rfl⟩

theorem Updates.setParams {env : ConfigEnv} (working : env.Working) (forUserConfig : Bool)
    (writes : List ParamWrite) :
    Updates (discard (Terragraph.setParams env forUserConfig writes))
      (·.put forUserConfig writes) := by
  intro _ typed
  obtain ⟨helper', ran, typed', same⟩ := run_setParams working typed forUserConfig writes
  exact ⟨helper', run_discard ran, typed', same⟩

theorem Updates.bind {first second : LinkConfigM PUnit}
    {update₁ update₂ : ParamLayers → ParamLayers} (one : Updates first update₁)
    (two : Updates second update₂) : Updates (first >>= fun _ => second) (update₂ ∘ update₁) := by
  intro helper typed
  obtain ⟨middle, ran, typedMiddle, atMiddle⟩ := one helper typed
  obtain ⟨helper', rest, typed', after⟩ := two middle typedMiddle
  refine ⟨helper', bind_eq_ok.mpr ⟨⟨⟩, middle, ran, rest⟩, typed', ?_⟩
  rw [after, atMiddle, Function.comp_apply]

theorem Updates.forM {ι : Type} {body : ι → LinkConfigM PUnit}
    {update : ι → ParamLayers → ParamLayers} {items : List ι}
    (each : ∀ item ∈ items, Updates (body item) (update item)) :
    Updates (items.forM body) (fun layers => items.foldl (fun layers item => update item layers)
      layers) := by
  induction items with
  | nil => exact .pure
  | cons item items ih =>
    have rest : Updates (items.forM body) _ :=
      ih fun other member => each other (by simp [member])
    exact (each item (by simp)).bind rest

theorem ParamLayers.foldl_put {ι : Type} (forUserConfig : Bool) (writes : ι → List ParamWrite)
    (items : List ι) (layers : ParamLayers) :
    items.foldl (fun layers item => layers.put forUserConfig (writes item)) layers =
      layers.put forUserConfig (items.flatMap writes) := by
  induction items generalizing layers with
  | nil =>
    cases forUserConfig with
    | true | false => rfl
  | cons _ _ ih =>
    rw [foldl_cons, ih]
    cases forUserConfig with
    | true | false => simp [put]

/-! ### What the writes leave -/

section Onto

variable {writes : List ParamWrite} {nodeName : String} {key : FwKey}

def ParamWrite.Sets (write : ParamWrite) (nodeName : String) (params : FwParams) (key : FwKey)
    (value : Option Int) : Prop :=
  write.nodeName = nodeName ∧ write.params = params ∧ find key write.values = some value

theorem ParamWrite.onto_of_sets {write : ParamWrite} {value : Option Int}
    (sets : write.Sets nodeName params key value) (layer : String → FwParams → FwKey → Option Int) :
    write.onto layer nodeName params key = value := by
  obtain ⟨rfl, rfl, found⟩ := sets
  simp [onto, found]

theorem ParamWrite.onto_of_not_sets {write : ParamWrite}
    (apart : ∀ value, ¬ write.Sets nodeName params key value)
    (layer : String → FwParams → FwKey → Option Int) :
    write.onto layer nodeName params key = layer nodeName params key := by
  unfold onto
  split
  · next here =>
    cases found : find key write.values with
    | none => rfl
    | some value => exact absurd ⟨here.1.symm, here.2.symm, found⟩ (apart value)
  · rfl

/-- A parameter that all writes which have a value for it agree on. -/
theorem foldl_onto_of_sets {value : Option Int}
    (present : ∃ write ∈ writes, write.Sets nodeName params key value)
    (agree : ∀ write ∈ writes, ∀ other, write.Sets nodeName params key other → other = value)
    (layer : String → FwParams → FwKey → Option Int) :
    writes.foldl ParamWrite.onto layer nodeName params key = value := by
  refine foldl_makes (P := fun layer : String → FwParams → FwKey → Option Int =>
    layer nodeName params key = value) ?_ (fun layer write sets => write.onto_of_sets sets layer)
    (.inl present)
  intro _ write member already
  by_cases sets : ∃ other, write.Sets nodeName params key other
  · obtain ⟨other, isOther⟩ := sets
    rw [write.onto_of_sets isOther, agree write member other isOther]
  · rw [write.onto_of_not_sets (not_exists.mp sets), already]

end Onto

end Terragraph
