/-
Module: Terragraph.Config.Metadata
Purpose: `ConfigMetadata::validate` and `validateParam`, with reported keys and error texts, and
  what they accept and report, path by path.
Trusted boundary: human-reviewed embedding of `ConfigMetadata.cpp`; regular expressions and number
  conversions are parameters; the loading of the metadata file is not modelled, only its result
Main exports: CfgRecursiveParam, ConfigMetadata.ValidationResult, ConfigMetadata.reports_validate
-/
import Terragraph.Config.Json

namespace Terragraph

namespace ConfigMetadata

/-- Library functions that the checks call. -/
structure Conversions where
  /-- `std::regex_match`, with the pattern first. -/
  regexMatch : String → String → Bool
  /-- `folly::tryTo<int64_t>`. -/
  tryToInt : String → Option Int
  /-- `folly::tryTo<double>`. -/
  tryToDouble : String → Option Rat
  /-- `folly::dynamic::asDouble` of an integer, which throws if precision would be lost. -/
  asDouble : Int → Except String Rat
  /-- `std::to_string` of a double. -/
  doubleText : Rat → String

/-! ### Metadata -/

/-- `CfgIntegerRange`. -/
structure CfgIntegerRange where
  min : Int
  max : Int

/-- `CfgFloatRange`. -/
structure CfgFloatRange where
  min : Rat
  max : Rat

/-- `CfgIntegerParam`. -/
structure CfgIntegerParam where
  allowedRanges : Option (List CfgIntegerRange) := none
  allowedValues : Option (List Int) := none

/-- `CfgFloatParam`. -/
structure CfgFloatParam where
  allowedRanges : Option (List CfgFloatRange) := none
  allowedValues : Option (List Rat) := none

/-- `CfgStringParam`. -/
structure CfgStringParam where
  regexMatches : Option String := none
  intRanges : Option (List CfgIntegerRange) := none
  floatRanges : Option (List CfgFloatRange) := none
  allowedValues : Option (List String) := none

mutual

/-- `CfgRecursiveParam`; an object or map without `objVal` or `mapVal` has a constructor of its own.
-/
inductive CfgRecursiveParam where
  | integer (intVal : Option CfgIntegerParam)
  | float (floatVal : Option CfgFloatParam)
  | string (strVal : Option CfgStringParam)
  | boolean
  | anyObject
  | object (properties : List (String × CfgObjectValMetadata))
  | anyMap
  | map (mapVal : CfgRecursiveParam)

/-- `CfgObjectValMetadata`. -/
inductive CfgObjectValMetadata where
  | mk (param : CfgRecursiveParam) (required readOnly deprecated sync : Bool)

end

namespace CfgObjectValMetadata

def param : CfgObjectValMetadata → CfgRecursiveParam
  | .mk param _ _ _ _ => param

def required : CfgObjectValMetadata → Bool
  | .mk _ required _ _ _ => required

def readOnly : CfgObjectValMetadata → Bool
  | .mk _ _ readOnly _ _ => readOnly

def deprecated : CfgObjectValMetadata → Bool
  | .mk _ _ _ deprecated _ => deprecated

def sync : CfgObjectValMetadata → Bool
  | .mk _ _ _ _ sync => sync

end CfgObjectValMetadata

/-- `CfgParamMetadata`. -/
structure CfgParamMetadata where
  param : CfgRecursiveParam
  readOnly : Bool := false
  deprecated : Bool := false
  sync : Bool := false

/-- An entry of `configMetaIndexMap_`: the metadata of a parameter, or the next level of keys. -/
inductive MetaNode where
  | param (paramMeta : CfgParamMetadata)
  | level (metaMap : List (String × MetaNode))

/-- `configMetaIndexMap_`, with the parameters it refers to in place of their indices. -/
abbrev MetaMap := List (String × MetaNode)

/-! ### Keys -/

/-- `ConfigMetadata::toFullKey`. -/
def toFullKey (keys : List String) : String :=
  String.intercalate "." keys

/-- `JsonUtils::jsonPointerEscape`. -/
def jsonPointerEscape (key : List Char) : List Char :=
  key.flatMap fun c => if c = '~' then ['~', '0'] else if c = '/' then ['~', '1'] else [c]

/-- `ConfigMetadata::toJsonPointer`. -/
def toJsonPointer (key : String) : String :=
  String.ofList (('/' :: jsonPointerEscape key.toList).map fun c => if c = '.' then '/' else c)

/-! ### Validation -/

/-- `ConfigMetadata::ValidationResult`. -/
structure ValidationResult where
  unrecognizedKeys : List String := []
  readOnlyKeys : List String := []
  deprecatedKeys : List String := []
  bstarUnsyncedKeys : List String := []

namespace ValidationResult

def unrecognized (keys : List String) (result : ValidationResult) : ValidationResult :=
  { result with unrecognizedKeys := result.unrecognizedKeys ++ [toFullKey keys] }

/-- A key with metadata is recorded according to its flags. -/
def flagged (keys : List String) (readOnly deprecated sync : Bool) (result : ValidationResult) :
    ValidationResult :=
  { result with
    readOnlyKeys := result.readOnlyKeys ++ if readOnly then [toFullKey keys] else []
    deprecatedKeys := result.deprecatedKeys ++ if deprecated then [toFullKey keys] else []
    bstarUnsyncedKeys := result.bstarUnsyncedKeys ++ if sync then [] else [toFullKey keys] }

end ValidationResult

/-- `typeName`. -/
def typeName : Json → String
  | .null => "null"
  | .bool _ => "boolean"
  | .int _ => "int64"
  | .double _ => "double"
  | .string _ => "string"
  | .array _ => "array"
  | .object _ => "object"

/-- The error when `items` or `find` is called on a value that is not an object. -/
def typeError (value : Json) : String :=
  "TypeError: expected dynamic type 'object', but had type '" ++ typeName value ++ "'"

def wrongType (expected : String) (param : Json) (keys : List String) : String :=
  "Expected " ++ expected ++ " type but found " ++ typeName param ++ " for key: " ++ toFullKey keys

def inIntegerRange (ranges : Option (List CfgIntegerRange)) (val : Int) : Bool :=
  (ranges.getD []).any fun range => decide (range.min ≤ val) && decide (val ≤ range.max)

def inFloatRange (ranges : Option (List CfgFloatRange)) (val : Rat) : Bool :=
  (ranges.getD []).any fun range => decide (range.min ≤ val) && decide (val ≤ range.max)

/-- The `INTEGER` case of `validateParam`. -/
def validateInteger (intVal : Option CfgIntegerParam) (param : Json) (keys : List String) :
    Except String Unit :=
  match param, intVal with
  | .int _, none => .ok ()
  | .int val, some intVal =>
    let hasAllowed := intVal.allowedValues.isSome
    let hasRanges := intVal.allowedRanges.isSome
    let allowed := (intVal.allowedValues.getD []).contains val
    let inRange := inIntegerRange intVal.allowedRanges val
    if (hasAllowed || hasRanges) && (!allowed && !inRange) then
      .error ("Invalid integer value '" ++ toString val ++ "' for key: " ++ toFullKey keys)
    else .ok ()
  | param, _ => .error (wrongType "integer" param keys)

section

variable (conv : Conversions)

/-- `isNumber`, and then `asDouble`. -/
def numberValue : Json → Option (Except String Rat)
  | .int val => some (conv.asDouble val)
  | .double val => some (.ok val)
  | _ => none

/-- The `FLOAT` case of `validateParam`. -/
def validateFloat (floatVal : Option CfgFloatParam) (param : Json) (keys : List String) :
    Except String Unit :=
  match numberValue conv param, floatVal with
  | none, _ => .error (wrongType "double" param keys)
  | some _, none => .ok ()
  | some (.error text), some _ => .error text
  | some (.ok val), some floatVal =>
    let hasAllowed := floatVal.allowedValues.isSome
    let hasRanges := floatVal.allowedRanges.isSome
    let allowed := (floatVal.allowedValues.getD []).contains val
    let inRange := inFloatRange floatVal.allowedRanges val
    if (hasAllowed || hasRanges) && (!allowed && !inRange) then
      .error ("Invalid float value '" ++ conv.doubleText val ++ "' for key: " ++ toFullKey keys)
    else .ok ()

/-- Whether a string stands for a number in the ranges, which it must if there are any. -/
def stringInRange (strVal : CfgStringParam) (val : String) (keys : List String) :
    Except String Bool :=
  if strVal.intRanges.isSome then
    match conv.tryToInt val with
    | none => .error ("String value '" ++ val ++
        "' is not parseable as an integer type for key: " ++ toFullKey keys)
    | some valInt => .ok (inIntegerRange strVal.intRanges valInt)
  else if strVal.floatRanges.isSome then
    match conv.tryToDouble val with
    | none => .error ("String value '" ++ val ++
        "' is not parseable as a float type for key: " ++ toFullKey keys)
    | some valFloat => .ok (inFloatRange strVal.floatRanges valFloat)
  else .ok false

/-- The `STRING` case of `validateParam`. -/
def validateString (strVal : Option CfgStringParam) (param : Json) (keys : List String) :
    Except String Unit :=
  match param, strVal with
  | .string _, none => .ok ()
  | .string val, some strVal =>
    let hasAllowed := strVal.allowedValues.isSome
    let hasRegex := strVal.regexMatches.isSome
    let hasRanges := strVal.intRanges.isSome || strVal.floatRanges.isSome
    let allowed := (strVal.allowedValues.getD []).contains val
    let regexMatch := strVal.regexMatches.any fun pattern => conv.regexMatch pattern val
    match stringInRange conv strVal val keys with
    | .error text => .error text
    | .ok inRange =>
      if (hasAllowed || hasRegex || hasRanges) && (!allowed && !regexMatch && !inRange) then
        .error ("Invalid string value '" ++ val ++ "' for key: " ++ toFullKey keys)
      else .ok ()
  | param, _ => .error (wrongType "string" param keys)

/-- The `BOOLEAN` case of `validateParam`. -/
def validateBoolean (param : Json) (keys : List String) : Except String Unit :=
  match param with
  | .bool _ => .ok ()
  | param => .error (wrongType "boolean" param keys)

def requireObject (expected : String) (param : Json) (keys : List String) : Except String Unit :=
  if param.isObject then .ok () else .error (wrongType expected param keys)

/-- The first loop of the `OBJECT` case: properties without metadata are recorded. -/
def unrecognizedProperties (properties : List (String × CfgObjectValMetadata)) (keys : List String) :
    List (String × Json) → ValidationResult → ValidationResult
  | [], result => result
  | (prop, _) :: rest, result =>
    unrecognizedProperties properties keys rest
      (if (AssocList.find prop properties).isSome then result
        else result.unrecognized (keys ++ [prop]))

mutual

/-- `ConfigMetadata::validateParam`. -/
def validateParam : CfgRecursiveParam → Json → List String → ValidationResult →
    Except String ValidationResult
  | .integer intVal, param, keys, result => do
    validateInteger intVal param keys
    return result
  | .float floatVal, param, keys, result => do
    validateFloat conv floatVal param keys
    return result
  | .string strVal, param, keys, result => do
    validateString conv strVal param keys
    return result
  | .boolean, param, keys, result => do
    validateBoolean param keys
    return result
  | .anyObject, param, keys, result => do
    requireObject "object" param keys
    return result
  | .object properties, param, keys, result => do
    requireObject "object" param keys
    validateProperties properties param keys
      (unrecognizedProperties properties keys param.members result)
  | .anyMap, param, keys, result => do
    requireObject "map" param keys
    return result
  | .map mapVal, param, keys, result => do
    requireObject "map" param keys
    param.members.foldlM
      (fun result member => validateParam mapVal member.2 (keys ++ [member.1]) result) result

/-- The second loop of the `OBJECT` case, over the properties that have metadata. -/
def validateProperties : List (String × CfgObjectValMetadata) → Json → List String →
    ValidationResult → Except String ValidationResult
  | [], _, _, result => .ok result
  | property :: rest, param, keys, result => do
    let result ← validateProperty property param keys result
    validateProperties rest param keys result

/-- The body of that loop. -/
def validateProperty : String × CfgObjectValMetadata → Json → List String → ValidationResult →
    Except String ValidationResult
  | (prop, paramMeta), param, keys, result =>
    match param.find prop with
    | none =>
      if paramMeta.required then
        .error ("Required object property '" ++ prop ++ "' missing for key: " ++ toFullKey keys)
      else .ok result
    | some value => validateValue paramMeta value (keys ++ [prop]) result

/-- A property that is present. -/
def validateValue : CfgObjectValMetadata → Json → List String → ValidationResult →
    Except String ValidationResult
  | .mk param _ readOnly deprecated sync, value, keys, result =>
    validateParam param value keys (result.flagged keys readOnly deprecated sync)

end

mutual

/-- The recursive `ConfigMetadata::validate`. -/
def validateLevel : Json → List String → MetaMap → ValidationResult → Except String ValidationResult
  | .object members, keys, metaMap, result => validateMembers members keys metaMap result
  | config, _, _, _ => .error (typeError config)

/-- Its loop over the members of the config. -/
def validateMembers : List (String × Json) → List String → MetaMap → ValidationResult →
    Except String ValidationResult
  | [], _, _, result => .ok result
  | member :: rest, keys, metaMap, result => do
    let result ← validateMember member keys metaMap result
    validateMembers rest keys metaMap result

/-- The body of the loop. -/
def validateMember : String × Json → List String → MetaMap → ValidationResult →
    Except String ValidationResult
  | (key, val), keys, metaMap, result =>
    match AssocList.find key metaMap with
    | none => .ok (result.unrecognized (keys ++ [key]))
    | some (.param paramMeta) =>
      validateParam conv paramMeta.param val (keys ++ [key])
        (result.flagged (keys ++ [key]) paramMeta.readOnly paramMeta.deprecated paramMeta.sync)
    | some (.level children) =>
      if val.isObject then validateLevel val (keys ++ [key]) children result else .ok result

end

/-- `ConfigMetadata::validate`. -/
def validate (metaMap : MetaMap) (config : Json) : Except String ValidationResult :=
  validateLevel conv config [] metaMap {}

end

end ConfigMetadata

open Option

open AssocList hiding keys
open List Json

namespace ConfigMetadata

inductive MetaShape where
  | level (metaMap : MetaMap)
  | param (param : CfgRecursiveParam)

/-- A path in the metadata, with the flags of its last key. -/
structure MetaPoint where
  shape : MetaShape
  readOnly : Bool := false
  deprecated : Bool := false

/-- One key further in the metadata. -/
inductive Next : MetaShape → String → MetaPoint → Prop where
  | level {metaMap children : MetaMap} {key : String}
      (found : find key metaMap = some (.level children)) :
      Next (.level metaMap) key ⟨.level children, false, false⟩
  | param {metaMap : MetaMap} {key : String} {paramMeta : CfgParamMetadata}
      (found : find key metaMap = some (.param paramMeta)) :
      Next (.level metaMap) key ⟨.param paramMeta.param, paramMeta.readOnly, paramMeta.deprecated⟩
  | property {properties : List (String × CfgObjectValMetadata)} {prop : String}
      {paramMeta : CfgObjectValMetadata} (member : (prop, paramMeta) ∈ properties) :
      Next (.param (.object properties)) prop
        ⟨.param paramMeta.param, paramMeta.readOnly, paramMeta.deprecated⟩
  | value {mapVal : CfgRecursiveParam} {key : String} :
      Next (.param (.map mapVal)) key ⟨.param mapVal, false, false⟩

/-- The metadata along a path of keys. -/
inductive Leads : MetaShape → List String → MetaPoint → Prop where
  | here {shape : MetaShape} {key : String} {point : MetaPoint} (next : Next shape key point) :
      Leads shape [key] point
  | further {shape : MetaShape} {key : String} {point final : MetaPoint} {path : List String}
      (next : Next shape key point) (later : Leads point.shape path final) :
      Leads shape (key :: path) final

variable {point : MetaPoint}

theorem Leads.ne_nil {shape : MetaShape} {path : List String}
    (leads : Leads shape path point) : path ≠ [] := by
  cases leads with
  | here next | further next later => exact cons_ne_nil _ _

section

variable (conv : Conversions)

/-- What is asked of a value without looking into its members. -/
def Allows : MetaShape → Json → Prop
  | .level _, _ => True
  | .param (.integer intVal), value => validateInteger intVal value [] = .ok ()
  | .param (.float floatVal), value => validateFloat conv floatVal value [] = .ok ()
  | .param (.string strVal), value => validateString conv strVal value [] = .ok ()
  | .param .boolean, value => validateBoolean value [] = .ok ()
  | .param .anyObject, value => value.isObject = true
  | .param (.object properties), value =>
    value.isObject = true ∧ ∀ property ∈ properties, property.2.required = true →
      value.find property.1 ≠ none
  | .param .anyMap, value => value.isObject = true
  | .param (.map _), value => value.isObject = true

def Accepts (shape : MetaShape) (json : Json) : Prop :=
  ∀ path point value, Leads shape path point → json.atPath path = some value →
    Allows conv point.shape value

def Sound (shape : MetaShape) (value : Json) : Prop :=
  Allows conv shape value ∧ Accepts conv shape value

variable {conv}

variable {shape : MetaShape} {json : Json}

theorem accepts_iff : Accepts conv shape json ↔ ∀ key point value, Next shape key point →
      json.find key = some value → Sound conv point.shape value := by
  constructor
  · intro accepts key point value next found
    constructor
    · apply accepts [key] point value (.here next)
      rw [atPath_cons, found]
      rfl
    · intro path final below leads reached
      apply accepts (key :: path) final below (.further next leads)
      rw [atPath_cons, found]
      exact reached
  · intro each _ _ below leads reached
    cases leads with
    | here next =>
      rw [atPath_cons, bind_eq_some_iff] at reached
      obtain ⟨value, found, isBelow⟩ := reached
      have same : value = below := some.inj isBelow
      rw [← same]
      exact (each _ _ value next found).1
    | further next later =>
      rw [atPath_cons, bind_eq_some_iff] at reached
      obtain ⟨value, found, reached⟩ := reached
      exact (each _ _ value next found).2 _ _ _ later reached

/-! ### When a check returns -/

def Passes {α : Type} (outcome : Except String α) : Prop :=
  ∃ result, outcome = .ok result

variable {α : Type}

theorem passes_ok (result : α) : Passes (Except.ok result) := ⟨result, rfl⟩

theorem not_passes_error (text : String) : ¬ Passes (Except.error text : Except String α) := by
  rintro ⟨_, impossible⟩
  cases impossible

/-! ### The texts of the errors do not matter -/

theorem passes_unit_iff {outcome : Except String Unit} : Passes outcome ↔ outcome = .ok () :=
  ⟨fun ⟨_, passes⟩ => passes, fun passes => ⟨(), passes⟩⟩

theorem validateInteger_ok (intVal : Option CfgIntegerParam) (param : Json)
    (keys keys' : List String) :
    validateInteger intVal param keys = .ok () ↔ validateInteger intVal param keys' = .ok () := by
  unfold validateInteger
  cases param <;> cases intVal <;> grind

theorem validateFloat_ok (floatVal : Option CfgFloatParam) (param : Json)
    (keys keys' : List String) :
    validateFloat conv floatVal param keys = .ok () ↔
      validateFloat conv floatVal param keys' = .ok () := by
  unfold validateFloat
  cases numberValue conv param with
  | none => simp
  | some number => cases number <;> cases floatVal <;> grind

theorem validateString_ok (strVal : Option CfgStringParam) (param : Json)
    (keys keys' : List String) :
    validateString conv strVal param keys = .ok () ↔
      validateString conv strVal param keys' = .ok () := by
  unfold validateString stringInRange
  cases param <;> cases strVal <;> grind

theorem validateBoolean_ok (param : Json) (keys keys' : List String) :
    validateBoolean param keys = .ok () ↔ validateBoolean param keys' = .ok () := by
  cases param <;> simp [validateBoolean]

theorem passes_requireObject (expected : String) (param : Json) (keys : List String) :
    Passes (requireObject expected param keys) ↔ param.isObject = true := by
  rw [requireObject]
  split
  · next isObject => exact iff_of_true (passes_ok ()) isObject
  · next notObject => exact iff_of_false (not_passes_error _) notObject

/-! ### Parameters -/

/-- What is asked of a property with metadata. -/
def PropertySound (conv : Conversions) (property : String × CfgObjectValMetadata) (param : Json) :
    Prop :=
  (property.2.required = true → param.find property.1 ≠ none) ∧
    ∀ value, param.find property.1 = some value → Sound conv (.param property.2.param) value

theorem sound_object_iff {properties : List (String × CfgObjectValMetadata)} {param : Json} :
    Sound conv (.param (.object properties)) param ↔
      param.isObject = true ∧ ∀ property ∈ properties, PropertySound conv property param := by
  rw [Sound, accepts_iff]
  constructor
  · rintro ⟨⟨isObject, required⟩, below⟩
    refine ⟨isObject, fun property member => ⟨required property member, ?_⟩⟩
    intro value found
    exact below _ _ value (.property member) found
  · rintro ⟨isObject, each⟩
    refine ⟨⟨isObject, fun property member => (each property member).1⟩, ?_⟩
    intro _ _ value next found
    cases next with
    | property member => exact (each _ member).2 value found

theorem sound_map_iff {mapVal : CfgRecursiveParam} {param : Json}
    (unique : param.uniqueKeys = true) :
    Sound conv (.param (.map mapVal)) param ↔
      param.isObject = true ∧ ∀ member ∈ param.members, Sound conv (.param mapVal) member.2 := by
  rw [Sound, accepts_iff]
  apply and_congr_right
  intro _
  constructor
  · rintro each ⟨key, value⟩ member
    exact each key _ value .value ((find_eq_some_iff (nodup_of_uniqueKeys unique)).mpr member)
  · intro each key _ value next found
    cases next with
    | value =>
      exact each (key, value) ((find_eq_some_iff (nodup_of_uniqueKeys unique)).mp found)

variable {param : CfgRecursiveParam}

theorem sound_leaf (leaf : ∀ key point, ¬ Next (.param param) key point)
    (json : Json) : Sound conv (.param param) json ↔ Allows conv (.param param) json :=
  and_iff_left (accepts_iff.mpr fun key point _ next => absurd next (leaf key point))

/-! ### Flags

A key with a flag that the config sets is among the keys the result lists.  Results only grow, so what
one turn of a loop reports is still there after the loop.
-/

structure Extends (result result' : ValidationResult) : Prop where
  readOnly : result.readOnlyKeys ⊆ result'.readOnlyKeys
  deprecated : result.deprecatedKeys ⊆ result'.deprecatedKeys

theorem Extends.refl (result : ValidationResult) : Extends result result :=
  ⟨List.Subset.refl _, List.Subset.refl _⟩

theorem Extends.trans {first second third : ValidationResult} (one : Extends first second)
    (two : Extends second third) : Extends first third :=
  ⟨List.Subset.trans one.readOnly two.readOnly, List.Subset.trans one.deprecated two.deprecated⟩

theorem Extends.flagged (keys : List String) (readOnly deprecated sync : Bool)
    (result : ValidationResult) : Extends result (result.flagged keys readOnly deprecated sync) :=
  ⟨subset_append_left _ _, subset_append_left _ _⟩

theorem Extends.unrecognizedProperties (properties : List (String × CfgObjectValMetadata))
    (keys : List String) (members : List (String × Json)) (result : ValidationResult) :
    Extends result (unrecognizedProperties properties keys members result) := by
  induction members generalizing result with
  | nil => exact .refl result
  | cons member _ ih =>
    obtain ⟨prop, value⟩ := member
    rw [ConfigMetadata.unrecognizedProperties]
    refine .trans ?_ (ih _)
    split
    · exact .refl result
    · exact ⟨List.Subset.refl _, List.Subset.refl _⟩

def Reports (result : ValidationResult) (keys : List String) (point : MetaPoint) : Prop :=
  (point.readOnly = true → toFullKey keys ∈ result.readOnlyKeys) ∧
    (point.deprecated = true → toFullKey keys ∈ result.deprecatedKeys)

variable {result result' : ValidationResult} {keys : List String}

theorem Reports.mono (reports : Reports result keys point) (grown : Extends result result') :
    Reports result' keys point :=
  ⟨fun flag => grown.readOnly (reports.1 flag), fun flag => grown.deprecated (reports.2 flag)⟩

theorem reports_flagged (keys : List String) (shape : MetaShape) (readOnly deprecated sync : Bool)
    (result : ValidationResult) :
    Reports (result.flagged keys readOnly deprecated sync) keys ⟨shape, readOnly, deprecated⟩ := by
  constructor
  · intro flag
    apply mem_append_right
    rw [show readOnly = true from flag]
    exact mem_singleton_self _
  · intro flag
    apply mem_append_right
    rw [show deprecated = true from flag]
    exact mem_singleton_self _

theorem Reports.unflagged : Reports result keys ⟨shape, false, false⟩ :=
  ⟨fun flag => Bool.noConfusion flag, fun flag => Bool.noConfusion flag⟩

/-- The flags of every key below are in the result. -/
def ReportsBelow (result : ValidationResult) (keys : List String) (shape : MetaShape)
    (json : Json) : Prop :=
  ∀ path point value, Leads shape path point → json.atPath path = some value →
    Reports result (keys ++ path) point

theorem ReportsBelow.mono (reports : ReportsBelow result keys shape json)
    (grown : Extends result result') : ReportsBelow result' keys shape json :=
  fun path point value leads reached => (reports path point value leads reached).mono grown

def ReportsAll (result : ValidationResult) (keys : List String) (point : MetaPoint)
    (value : Json) : Prop :=
  Reports result keys point ∧ ReportsBelow result keys point.shape value

theorem ReportsAll.mono {value : Json}
    (reports : ReportsAll result keys point value) (grown : Extends result result') :
    ReportsAll result' keys point value :=
  ⟨reports.1.mono grown, reports.2.mono grown⟩

theorem reportsBelow_of_next
    (each : ∀ key point value, Next shape key point → json.find key = some value →
      ReportsAll result (keys ++ [key]) point value) : ReportsBelow result keys shape json := by
  intro _ _ _ leads reached
  cases leads with
  | here next =>
    rw [atPath_cons, bind_eq_some_iff] at reached
    obtain ⟨value, found, _⟩ := reached
    exact (each _ _ value next found).1
  | further next later =>
    rw [atPath_cons, bind_eq_some_iff] at reached
    obtain ⟨value, found, reached⟩ := reached
    rw [append_cons]
    exact (each _ _ value next found).2 _ _ _ later reached

/-- If the check returns, its result has grown and has a property. -/
def Tells (outcome : Except String ValidationResult) (result : ValidationResult)
    (property : ValidationResult → Prop) : Prop :=
  ∀ result', outcome = .ok result' → Extends result result' ∧ property result'

/-! ### What a check does -/

/-- The check returns exactly if what is asked for holds, and its result tells something. -/
structure Checks (outcome : Except String ValidationResult) (result : ValidationResult)
    (asked : Prop) (told : ValidationResult → Prop) : Prop where
  passes : Passes outcome ↔ asked
  tells : Tells outcome result told

namespace Checks

variable {outcome : Except String ValidationResult} {asked also : Prop}
  {told toldToo : ValidationResult → Prop}

theorem ok (holds : asked) (reports : told result) : Checks (.ok result) result asked told := by
  refine ⟨iff_of_true (passes_ok result) holds, ?_⟩
  intro _ returned
  cases returned
  exact ⟨.refl result, reports⟩

theorem error {text : String} (fails : ¬ asked) : Checks (.error text) result asked told :=
  ⟨iff_of_false (not_passes_error text) fails, nofun⟩

theorem imp (checks : Checks outcome result asked told) (same : asked ↔ also)
    (implies : ∀ final, told final → toldToo final) : Checks outcome result also toldToo :=
  ⟨checks.passes.trans same,
    fun final returned => (checks.tells final returned).imp_right (implies final)⟩

theorem of_grown (checks : Checks outcome result' asked told) (grown : Extends result result') :
    Checks outcome result asked told :=
  ⟨checks.passes, fun final returned => (checks.tells final returned).imp_left grown.trans⟩

variable {first : Except String Unit}

theorem after {required : Prop} (passes : Passes first ↔ required)
    (checks : Checks outcome result asked told) :
    Checks (do first; outcome) result (required ∧ asked) told := by
  cases first with
  | error text => exact .error fun both => not_passes_error text (passes.mpr both.1)
  | ok _ => exact checks.imp (and_iff_right (passes.mp (passes_ok _))).symm fun _ => id

theorem bind {next : ValidationResult → Except String ValidationResult}
    (mono : ∀ middle final, Extends middle final → told middle → told final)
    (checks : Checks outcome result asked told)
    (later : ∀ middle, Checks (next middle) middle also toldToo) :
    Checks (outcome >>= next) result (asked ∧ also) (fun final => told final ∧ toldToo final) := by
  cases outcome with
  | error text => exact .error fun both => not_passes_error text (checks.passes.mpr both.1)
  | ok middle =>
    obtain ⟨grown, holds⟩ := checks.tells middle rfl
    have holdsAsked := checks.passes.mp (passes_ok middle)
    refine ⟨(later middle).passes.trans (and_iff_right holdsAsked).symm, ?_⟩
    intro final returned
    obtain ⟨grownLater, holdsToo⟩ := (later middle).tells final returned
    exact ⟨grown.trans grownLater, mono middle final grownLater holds, holdsToo⟩

theorem foldlM {body : ValidationResult → α → Except String ValidationResult} {asked : α → Prop}
    {told : α → ValidationResult → Prop} {items : List α}
    (each : ∀ item ∈ items, ∀ result, Checks (body result item) result (asked item) (told item))
    (mono : ∀ item middle final, Extends middle final → told item middle → told item final)
    (result : ValidationResult) :
    Checks (items.foldlM body result) result (∀ item ∈ items, asked item)
      (fun final => ∀ item ∈ items, told item final) := by
  induction items generalizing result with
  | nil =>
    exact .ok nofun nofun
  | cons item _ ih =>
    simp only [forall_mem_cons]
    refine .bind (mono item) (each item mem_cons_self result) (ih ?_)
    exact fun other inRest => each other (mem_cons_of_mem _ inRest)

theorem leaf {json : Json} (none : ∀ key point, ¬ Next (.param param) key point)
    (passes : Passes first ↔ Allows conv (.param param) json) :
    Checks (do first; return result) result (Sound conv (.param param) json)
      (fun final => ReportsBelow final keys (.param param) json) := by
  have told : ReportsBelow result keys (.param param) json :=
    reportsBelow_of_next fun key point _ next => absurd next (none key point)
  refine (Checks.after passes (.ok trivial told)).imp ?_ fun _ => id
  rw [and_true, sound_leaf none]

theorem flagged {value : Json} {readOnly deprecated sync : Bool}
    (checks : Checks outcome (result.flagged keys readOnly deprecated sync) asked
      (fun final => ReportsBelow final keys (.param param) value)) :
    Checks outcome result asked
      (fun final => ReportsAll final keys ⟨.param param, readOnly, deprecated⟩ value) := by
  refine ⟨checks.passes, fun final returned => ?_⟩
  obtain ⟨grown, below⟩ := checks.tells final returned
  exact ⟨(Extends.flagged keys readOnly deprecated sync result).trans grown,
    (reports_flagged keys (.param param) readOnly deprecated sync result).mono grown, below⟩

end Checks

/-- The flags of a property and of what is below it are in the result. -/
def PropertyReported (keys : List String) (property : String × CfgObjectValMetadata) (param : Json)
    (result : ValidationResult) : Prop :=
  ∀ value, param.find property.1 = some value → ReportsAll result (keys ++ [property.1])
    ⟨.param property.2.param, property.2.readOnly, property.2.deprecated⟩ value

mutual

theorem checks_validateParam : ∀ (paramMeta : CfgRecursiveParam) {param : Json}
    (_ : param.uniqueKeys = true) (keys : List String) (result : ValidationResult),
    Checks (validateParam conv paramMeta param keys result) result
      (Sound conv (.param paramMeta) param)
      (fun final => ReportsBelow final keys (.param paramMeta) param)
  | .integer intVal, param, _, keys, result => by
    rw [validateParam]
    exact .leaf nofun (passes_unit_iff.trans (validateInteger_ok intVal param keys []))
  | .float floatVal, param, _, keys, result => by
    rw [validateParam]
    exact .leaf nofun (passes_unit_iff.trans (validateFloat_ok floatVal param keys []))
  | .string strVal, param, _, keys, result => by
    rw [validateParam]
    exact .leaf nofun (passes_unit_iff.trans (validateString_ok strVal param keys []))
  | .boolean, param, _, keys, result => by
    rw [validateParam]
    exact .leaf nofun (passes_unit_iff.trans (validateBoolean_ok param keys []))
  | .anyObject, param, _, keys, result => by
    rw [validateParam]
    exact .leaf nofun (passes_requireObject "object" param keys)
  | .anyMap, param, _, keys, result => by
    rw [validateParam]
    exact .leaf nofun (passes_requireObject "map" param keys)
  | .object properties, param, unique, keys, result => by
    rw [validateParam]
    have below := (checks_validateProperties properties unique keys _).of_grown
      (.unrecognizedProperties properties keys param.members result)
    refine (Checks.after (passes_requireObject "object" param keys) below).imp
      sound_object_iff.symm ?_
    refine fun final each => reportsBelow_of_next ?_
    intro _ _ value next found
    cases next with
    | property member => exact each _ member value found
  | .map mapVal, param, unique, keys, result => by
    rw [validateParam]
    have each : ∀ member ∈ param.members, ∀ result, Checks
        (validateParam conv mapVal member.2 (keys ++ [member.1]) result) result
        (Sound conv (.param mapVal) member.2)
        (fun final => ReportsBelow final (keys ++ [member.1]) (.param mapVal) member.2) :=
      fun member inside => checks_validateParam mapVal (uniqueKeys_of_member unique inside)
        (keys ++ [member.1])
    have below := Checks.foldlM each
      (fun _ _ _ grown reports => ReportsBelow.mono reports grown) result
    refine (Checks.after (passes_requireObject "map" param keys) below).imp
      (sound_map_iff unique).symm ?_
    refine fun _ each => reportsBelow_of_next ?_
    intro key _ value next found
    cases next with
    | value =>
      have inside := (find_eq_some_iff (nodup_of_uniqueKeys unique)).mp found
      exact ⟨Reports.unflagged, each (key, value) inside⟩

theorem checks_validateProperties : ∀ (properties : List (String × CfgObjectValMetadata))
    {param : Json} (_ : param.uniqueKeys = true) (keys : List String) (result : ValidationResult),
    Checks (validateProperties conv properties param keys result) result
      (∀ property ∈ properties, PropertySound conv property param)
      (fun final => ∀ property ∈ properties, PropertyReported keys property param final)
  | [], param, _, keys, result => .ok nofun nofun
  | property :: rest, param, unique, keys, result => by
    simp only [validateProperties, forall_mem_cons]
    refine .bind ?_ (checks_validateProperty property unique keys result)
      (checks_validateProperties rest unique keys)
    intro _ _ grown reports value found
    exact (reports value found).mono grown

theorem checks_validateProperty : ∀ (property : String × CfgObjectValMetadata) {param : Json}
    (_ : param.uniqueKeys = true) (keys : List String) (result : ValidationResult),
    Checks (validateProperty conv property param keys result) result
      (PropertySound conv property param) (PropertyReported keys property param)
  | (prop, paramMeta), param, unique, keys, result => by
    unfold validateProperty PropertySound PropertyReported
    cases found : param.find prop with
    | none =>
      cases required : paramMeta.required with
      | true =>
        refine .error ?_
        rintro ⟨present, _⟩
        exact present rfl rfl
      | false => exact .ok ⟨nofun, nofun⟩ nofun
    | some =>
      refine (checks_validateValue paramMeta (uniqueKeys_of_find unique found) _ result).imp ?_ ?_
      · simp
      · intro _ reports _ same
        cases same
        exact reports

theorem checks_validateValue : ∀ (paramMeta : CfgObjectValMetadata) {value : Json}
    (_ : value.uniqueKeys = true) (keys : List String) (result : ValidationResult),
    Checks (validateValue conv paramMeta value keys result) result
      (Sound conv (.param paramMeta.param) value)
      (fun final => ReportsAll final keys
        ⟨.param paramMeta.param, paramMeta.readOnly, paramMeta.deprecated⟩ value)
  | .mk param required readOnly deprecated sync, value, unique, keys, result => by
    rw [validateValue]
    exact (checks_validateParam param unique keys _).flagged

end

/-! ### Levels -/

def MemberSound (conv : Conversions) (metaMap : MetaMap) (member : String × Json) : Prop :=
  ∀ point, Next (.level metaMap) member.1 point → Sound conv point.shape member.2

theorem accepts_level_iff {metaMap : MetaMap} {members : List (String × Json)}
    (nodup : (AssocList.keys members).Nodup) :
    Accepts conv (.level metaMap) (.object members) ↔
      ∀ member ∈ members, MemberSound conv metaMap member := by
  rw [accepts_iff]
  constructor
  · rintro each ⟨key, value⟩ member point next
    exact each key point value next ((find_eq_some_iff nodup).mpr member)
  · intro each key point value next found
    exact each (key, value) ((find_eq_some_iff nodup).mp found) point next

/-- The flags of a member of a config and of what is below it are in the result. -/
def MemberReported (keys : List String) (metaMap : MetaMap) (member : String × Json)
    (result : ValidationResult) : Prop :=
  ∀ point, Next (.level metaMap) member.1 point →
    ReportsAll result (keys ++ [member.1]) point member.2

mutual

theorem checks_validateLevel : ∀ (config : Json) (_ : config.uniqueKeys = true) (keys : List String)
    (metaMap : MetaMap) (result : ValidationResult),
    Checks (validateLevel conv config keys metaMap result) result
      (config.isObject = true ∧ Accepts conv (.level metaMap) config)
      (fun final => ReportsBelow final keys (.level metaMap) config)
  | .object members, unique, keys, metaMap, result => by
    obtain ⟨nodup, inside⟩ := uniqueKeys_object_iff.mp unique
    rw [validateLevel]
    refine (checks_validateMembers members inside keys metaMap result).imp ?_ ?_
    · rw [accepts_level_iff nodup]
      exact (and_iff_right rfl).symm
    · refine fun final each => reportsBelow_of_next ?_
      intro key point value next found
      exact each (key, value) ((find_eq_some_iff nodup).mp found) point next
  | .null, _, _, _, _ | .bool _, _, _, _, _ | .int _, _, _, _, _ | .double _, _, _, _, _
  | .string _, _, _, _, _ | .array _, _, _, _, _ => .error fun both => by cases both.1

theorem checks_validateMembers : ∀ (members : List (String × Json))
    (_ : ∀ member ∈ members, member.2.uniqueKeys = true) (keys : List String) (metaMap : MetaMap)
    (result : ValidationResult),
    Checks (validateMembers conv members keys metaMap result) result
      (∀ member ∈ members, MemberSound conv metaMap member)
      (fun final => ∀ member ∈ members, MemberReported keys metaMap member final)
  | [], _, _, _, result => .ok nofun nofun
  | member :: rest, inside, keys, metaMap, result => by
    simp only [validateMembers, forall_mem_cons]
    refine .bind ?_ (checks_validateMember member (inside member mem_cons_self) keys metaMap result)
      (checks_validateMembers rest
        (fun other inRest => inside other (mem_cons_of_mem _ inRest)) keys metaMap)
    intro _ _ grown reports point next
    exact (reports point next).mono grown

theorem checks_validateMember : ∀ (member : String × Json) (_ : member.2.uniqueKeys = true)
    (keys : List String) (metaMap : MetaMap) (result : ValidationResult),
    Checks (validateMember conv member keys metaMap result) result
      (MemberSound conv metaMap member) (MemberReported keys metaMap member)
  | (key, value), unique, keys, metaMap, result => by
    rw [validateMember]
    cases found : find key metaMap with
    | none =>
      have nowhere : ∀ point, ¬ Next (.level metaMap) key point := by
        intro _ next
        cases next with
        | level other | param other => cases found.symm.trans other
      exact (Checks.ok (fun point next => absurd next (nowhere point))
        fun point next => absurd next (nowhere point)).of_grown
          ⟨List.Subset.refl _, List.Subset.refl _⟩
    | some node =>
      cases node with
      | param paramMeta =>
        have only : ∀ point, Next (.level metaMap) key point →
            point = ⟨.param paramMeta.param, paramMeta.readOnly, paramMeta.deprecated⟩ := by
          intro _ next
          cases next with
          | level other => cases found.symm.trans other
          | param other =>
            cases found.symm.trans other
            rfl
        refine (checks_validateParam paramMeta.param unique (keys ++ [key]) _).flagged.imp ?_ ?_
        · exact ⟨fun sound point next => only point next ▸ sound, fun each => each _ (.param found)⟩
        · exact fun final reports point next => only point next ▸ reports
      | level children =>
        have only : ∀ point, Next (.level metaMap) key point →
            point = ⟨.level children, false, false⟩ := by
          intro _ next
          cases next with
          | level other =>
            cases found.symm.trans other
            rfl
          | param other => cases found.symm.trans other
        have below : Checks (if value.isObject then
              validateLevel conv value (keys ++ [key]) children result else .ok result) result
            (Accepts conv (.level children) value)
            (fun final => ReportsBelow final (keys ++ [key]) (.level children) value) := by
          cases isObject : value.isObject with
          | true =>
            refine (checks_validateLevel value unique _ children result).imp ?_ fun _ => id
            exact and_iff_right isObject
          | false =>
            have missing : ∀ other, value.find other = none := find_of_not_isObject isObject
            refine .ok (accepts_iff.mpr ?_) (reportsBelow_of_next ?_)
            · intro other _ _ _ inside
              cases (missing other).symm.trans inside
            · intro other _ _ _ inside
              cases (missing other).symm.trans inside
        refine below.imp ?_ ?_
        · exact ⟨fun accepts point next => only point next ▸ ⟨trivial, accepts⟩,
            fun each => (each _ (.level found)).2⟩
        · exact fun _ reports point next => only point next ▸ ⟨Reports.unflagged, reports⟩

end

theorem passes_validate {config : Json} (unique : config.uniqueKeys = true) (metaMap : MetaMap) :
    Passes (validate conv metaMap config) ↔
      config.isObject = true ∧ Accepts conv (.level metaMap) config :=
  (checks_validateLevel config unique [] metaMap {}).passes

theorem reports_validate {config : Json} (unique : config.uniqueKeys = true) {metaMap : MetaMap}
    (returned : validate conv metaMap config = .ok result) :
    ReportsBelow result [] (.level metaMap) config :=
  ((checks_validateLevel config unique [] metaMap {}).tells result returned).2

end

end ConfigMetadata

end Terragraph
