/-
Module: Terragraph.Config.NodeConfig
Purpose: How versions are compared, and how `ConfigHelper` builds the config of a node from base
  configs and overrides; the order of merging override layers is immaterial, and which base config
  version is selected.
Trusted boundary: human-reviewed embedding of `ConfigUtil.cpp` and `ConfigHelper.cpp`; reading
  files, parsing JSON and deserialising a `thrift::NodeConfig` are parameters
Main exports: SwVersion, buildNodeConfig, layers_merge_in_order, selectsBaseVersion_iff
-/
import Terragraph.Config.Metadata

namespace Terragraph

open List

/-! ### Parsing -/

/-- White space as `folly::trimWhitespace` understands it. -/
def isWhitespace (c : Char) : Bool :=
  c = ' ' || c = '\n' || c = '\r' || c = '\t'

/-- `folly::trimWhitespace`. -/
def trimWhitespace (text : List Char) : List Char :=
  ((text.dropWhile isWhitespace).reverse.dropWhile isWhitespace).reverse

/-- The rest of a text from the first occurrence of a pattern on. -/
def fromFirst (pattern : List Char) : List Char → Option (List Char)
  | [] => if pattern = [] then some [] else none
  | c :: rest =>
    if pattern.isPrefixOf (c :: rest) then some (c :: rest) else fromFirst pattern rest

/-- `folly::to<size_t>` of a text of digits, which throws if the number is too large. -/
def toSize (digits : List Char) : Option Nat :=
  let number := digits.foldl (fun number digit => 10 * number + (digit.toNat - '0'.toNat)) 0
  if number < 2 ^ 64 then some number else none

/-- `RELEASE_M(\d+)(_(\d+))?` at the beginning of a text: the digits of the two versions. -/
def matchMajorMinor (text : List Char) : Option (List Char × List Char) :=
  if "RELEASE_M".toList.isPrefixOf text then
    let rest := text.drop "RELEASE_M".toList.length
    let major := rest.takeWhile Char.isDigit
    if major.isEmpty then none
    else
      match rest.drop major.length with
      | '_' :: tail => some (major, tail.takeWhile Char.isDigit)
      | _ => some (major, [])
  else none

/-- `std::regex_search` for that expression. -/
def searchMajorMinor : List Char → Option (List Char × List Char)
  | [] => none
  | c :: rest =>
    match matchMajorMinor (c :: rest) with
    | some found => some found
    | none => searchMajorMinor rest

/-- `SwVersion`. -/
structure SwVersion where
  fullVersion : String := ""
  version : String := ""
  tokens : List String := []
  majorVersion : Nat := 0
  minorVersion : Nat := 0
  deriving DecidableEq

namespace SwVersion

/-- The major and the minor version, or 0 if not parsed. -/
def parseMajorMinor (version : List Char) : Nat × Nat :=
  match searchMajorMinor version with
  | none => (0, 0)
  | some (major, minor) =>
    match toSize major with
    -- The conversion throws, and the constructor has set neither number.
    | none => (0, 0)
    | some major => (major, if minor.isEmpty then 0 else (toSize minor).getD 0)

/-- The constructor of `SwVersion` for a version string. -/
def ofString (ver : String) : SwVersion :=
  let fullVersion := trimWhitespace ver.toList
  if fullVersion.isEmpty then {}
  else
    let body := (fromFirst "RELEASE_".toList fullVersion).getD fullVersion
    let body := trimWhitespace (body.takeWhile (· ≠ '('))
    let tokens := body.splitOnP fun c => c = '-' || c = '_'
    let version := intercalate ['_'] tokens
    let majorMinor := parseMajorMinor version
    { fullVersion := String.ofList fullVersion
      version := String.ofList version
      tokens := tokens.map String.ofList
      majorVersion := majorMinor.1
      minorVersion := majorMinor.2 }

def unparsed (v : SwVersion) : Bool :=
  v.majorVersion == 0 && v.minorVersion == 0

/-- `operator<`. -/
def lt (v w : SwVersion) : Bool :=
  if v.unparsed && w.unparsed then decide (v.fullVersion < w.fullVersion)
  else if v.majorVersion ≠ w.majorVersion then decide (v.majorVersion < w.majorVersion)
  else decide (v.minorVersion < w.minorVersion)

/-- `operator==`. -/
def equal (v w : SwVersion) : Bool :=
  if v.unparsed && w.unparsed then decide (v.fullVersion = w.fullVersion)
  else v.majorVersion == w.majorVersion && v.minorVersion == w.minorVersion

end SwVersion

/-- The loop of `ConfigHelper::matchBaseVersion` for a software version with a valid major version. -/
def bestBaseVersion (swVer : SwVersion) : List String → SwVersion → String
  | [], bestBaseVer => bestBaseVer.fullVersion
  | name :: rest, bestBaseVer =>
    let baseSwVer := SwVersion.ofString name
    if swVer.equal baseSwVer then baseSwVer.fullVersion
    else if baseSwVer.lt swVer && bestBaseVer.lt baseSwVer then
      bestBaseVersion swVer rest baseSwVer
    else bestBaseVersion swVer rest bestBaseVer

/-- The loop for a software version without one: as many tokens as possible are matched. -/
def matchTokens (swVer : SwVersion) (baseVersions : List String) : Nat → Option String
  | 0 => none
  | count + 1 =>
    let ver := String.intercalate "_" (swVer.tokens.take (count + 1))
    if ver ∈ baseVersions then some ver else matchTokens swVer baseVersions count

/-- `ConfigHelper::matchBaseVersion`, for the keys of `baseConfigs` in the order of iteration. -/
def matchBaseVersion (swVer : SwVersion) (baseVersions : List String) : Option String :=
  if swVer.fullVersion ∈ baseVersions then some swVer.fullVersion
  else if swVer.majorVersion > 0 then some (bestBaseVersion swVer baseVersions {})
  else matchTokens swVer baseVersions swVer.tokens.length

/-! ### Firmware -/

/-- `FwVersion`. -/
structure FwVersion where
  fullVersion : String := ""
  majorVersion : String := ""
  minorVersion : Nat := 0

/-- `([^.]*\.[^.]*\.[^.]*)\.(\d+)` at the beginning of a text. -/
def matchFwVersion (text : List Char) : Option (List Char × List Char) :=
  match text.splitOnP (· = '.') with
  | first :: second :: third :: fourth :: _ =>
    let minor := fourth.takeWhile Char.isDigit
    if minor.isEmpty then none
    else some (first ++ '.' :: second ++ '.' :: third, minor)
  | _ => none

/-- `std::regex_search` for that expression. -/
def searchFwVersion : List Char → Option (List Char × List Char)
  | [] => none
  | c :: rest =>
    match matchFwVersion (c :: rest) with
    | some found => some found
    | none => searchFwVersion rest

/-- The constructor of `FwVersion`, which throws if the minor version is too large. -/
def FwVersion.ofString (ver : String) : Except String FwVersion :=
  match searchFwVersion ver.toList with
  | none => .ok { fullVersion := ver, majorVersion := ver, minorVersion := 0 }
  | some (major, minor) =>
    match toSize minor with
    | none => .error "Overflow during conversion"
    | some minorVersion =>
      .ok
        { fullVersion := ver
          majorVersion := String.ofList major
          minorVersion := minorVersion }

/-- The loop of `ConfigHelper::matchFirmwareVersion`. -/
def bestFwVersion (ver : FwVersion) : List String → FwVersion → Except String (Option String)
  | [], bestFwVer =>
    .ok (if bestFwVer.fullVersion.isEmpty then none else some bestFwVer.fullVersion)
  | name :: rest, bestFwVer => do
    let baseFwVer ← FwVersion.ofString name
    if baseFwVer.majorVersion = ver.majorVersion then
      if baseFwVer.minorVersion = ver.minorVersion then return some baseFwVer.fullVersion
      else if baseFwVer.minorVersion < ver.minorVersion ∧
          bestFwVer.minorVersion ≤ baseFwVer.minorVersion then
        bestFwVersion ver rest baseFwVer
      else bestFwVersion ver rest bestFwVer
    else bestFwVersion ver rest bestFwVer

/-- `ConfigHelper::matchFirmwareVersion`. -/
def matchFirmwareVersion (fwVer : String) (fwVersions : List String) :
    Except String (Option String) := do
  let ver ← FwVersion.ofString fwVer
  bestFwVersion ver fwVersions {}

/-! ### The order of versions

`operator<` falls back to the version string only between versions that were not parsed.  It is the
order of a rank in which all other versions have no string.
-/

variable {v w : SwVersion}

namespace SwVersion

def rank (v : SwVersion) : Nat ×ₗ Nat ×ₗ String :=
  toLex (v.majorVersion, toLex (v.minorVersion, if v.unparsed then v.fullVersion else ""))

theorem unparsed_iff : v.unparsed = true ↔ v.majorVersion = 0 ∧ v.minorVersion = 0 := by
  rw [unparsed, Bool.and_eq_true, beq_iff_eq, beq_iff_eq]

theorem unparsed_congr (major : v.majorVersion = w.majorVersion)
    (minor : v.minorVersion = w.minorVersion) : v.unparsed = w.unparsed := by
  rw [unparsed, unparsed, major, minor]

theorem lt_iff : v.lt w = true ↔ v.rank < w.rank := by
  rw [rank, rank, Prod.Lex.toLex_lt_toLex, Prod.Lex.toLex_lt_toLex, lt]
  by_cases both : v.unparsed = true ∧ w.unparsed = true
  · obtain ⟨majorV, minorV⟩ := unparsed_iff.mp both.1
    obtain ⟨majorW, minorW⟩ := unparsed_iff.mp both.2
    simp [both, majorV, minorV, majorW, minorW]
  · rw [if_neg (by simpa only [Bool.and_eq_true] using both)]
    by_cases major : v.majorVersion = w.majorVersion
    · by_cases minor : v.minorVersion = w.minorVersion
      · have neither : w.unparsed = false := by
          rw [unparsed_congr major minor, and_self] at both
          exact Bool.eq_false_iff.mpr both
        simp [major, unparsed_congr major minor, neither]
      · simp [major, minor]
    · simp [major]

theorem equal_iff : v.equal w = true ↔ v.rank = w.rank := by
  have components : v.rank = w.rank ↔ v.majorVersion = w.majorVersion ∧
      v.minorVersion = w.minorVersion ∧
      (if v.unparsed then v.fullVersion else "") = if w.unparsed then w.fullVersion else "" := by
    rw [rank, rank, toLex_inj, Prod.mk.injEq, toLex_inj, Prod.mk.injEq]
  rw [components, equal]
  by_cases both : v.unparsed = true ∧ w.unparsed = true
  · obtain ⟨majorV, minorV⟩ := unparsed_iff.mp both.1
    obtain ⟨majorW, minorW⟩ := unparsed_iff.mp both.2
    simp [both, majorV, minorV, majorW, minorW]
  · rw [if_neg (by simpa only [Bool.and_eq_true] using both), Bool.and_eq_true, beq_iff_eq,
      beq_iff_eq]
    constructor
    · rintro ⟨major, minor⟩
      have neither : w.unparsed = false := by
        rw [unparsed_congr major minor, and_self] at both
        exact Bool.eq_false_iff.mpr both
      simp [major, minor, unparsed_congr major minor, neither]
    · rintro ⟨major, minor, _⟩
      exact ⟨major, minor⟩

theorem fullVersion_of_not_default_lt (least : ({} : SwVersion).lt v = false) :
    v.fullVersion = "" := by
  rw [lt] at least
  split at least
  · by_contra nonempty
    have above : "" < v.fullVersion := by
      rw [String.lt_iff_toList_lt]
      cases chars : v.fullVersion.toList with
      | nil => exact absurd (String.toList_eq_nil_iff.mp chars) nonempty
      | cons head tail => exact nil_lt_cons head tail
    exact of_decide_eq_false least above
  · next parsed =>
    exfalso
    apply parsed
    rw [Bool.and_eq_true]
    refine ⟨rfl, unparsed_iff.mpr ?_⟩
    split at least
    · next major =>
      exact absurd (Nat.pos_of_ne_zero (Ne.symm major)) (of_decide_eq_false least)
    · next major =>
      have noMajor : v.majorVersion = 0 := (not_not.mp major).symm
      exact ⟨noMajor, Nat.eq_zero_of_not_pos (of_decide_eq_false least)⟩

end SwVersion

theorem dropWhile_eq_self_of_prefix {α : Type} {p : α → Bool} {start whole : List α}
    (isPrefix : start <+: whole) (kept : whole.dropWhile p = whole) : start.dropWhile p = start := by
  cases start with
  | nil => rfl
  | cons =>
    obtain ⟨_, rfl⟩ := isPrefix
    rw [dropWhile_eq_self_iff] at kept ⊢
    intro _
    exact kept (Nat.succ_pos _)

theorem trimWhitespace_idem (text : List Char) :
    trimWhitespace (trimWhitespace text) = trimWhitespace text := by
  have kept : (trimWhitespace text).dropWhile isWhitespace = trimWhitespace text :=
    dropWhile_eq_self_of_prefix ( rdropWhile_prefix isWhitespace _)
      (dropWhile_idempotent isWhitespace _)
  show rdropWhile isWhitespace ((trimWhitespace text).dropWhile isWhitespace) = _
  rw [kept]
  exact rdropWhile_idempotent isWhitespace _

variable {swVer : SwVersion}

namespace SwVersion

theorem fullVersion_ofString (ver : String) :
    (ofString ver).fullVersion = String.ofList (trimWhitespace ver.toList) := by
  rw [ofString]
  split
  · next empty =>
    rw [isEmpty_iff.mp empty]
  · rfl

theorem ofString_fullVersion (ver : String) : ofString (ofString ver).fullVersion = ofString ver := by
  rw [fullVersion_ofString]
  conv_lhs => rw [ofString, String.toList_ofList, trimWhitespace_idem]
  rfl

def AtMost (swVer : SwVersion) (name : String) : Prop :=
  swVer.lt (ofString name) = false

instance (swVer : SwVersion) (name : String) : Decidable (AtMost swVer name) :=
  inferInstanceAs (Decidable (_ = _))

theorem lt_eq_false_iff : v.lt w = false ↔ w.rank ≤ v.rank := by
  rw [Bool.eq_false_iff, Ne, lt_iff, not_lt]

theorem atMost_iff {name : String} :
    AtMost swVer name ↔ (ofString name).rank ≤ swVer.rank :=
  lt_eq_false_iff

end SwVersion

open SwVersion

/-! ### The selection -/

/-- What the loop returns: a version that is at least as high as every base version that does not
exceed the software version, and is the start or such a base version. -/
theorem bestBaseVersion_spec {best : SwVersion} (below : best.rank ≤ swVer.rank)
    (baseVersions : List String) :
    ∃ final : SwVersion, bestBaseVersion swVer baseVersions best = final.fullVersion ∧
      (final = best ∨ ∃ name ∈ baseVersions, final = ofString name ∧ AtMost swVer name) ∧
      best.rank ≤ final.rank ∧
      ∀ name ∈ baseVersions, AtMost swVer name → (ofString name).rank ≤ final.rank := by
  induction baseVersions generalizing best with
  | nil => exact ⟨best, rfl, .inl rfl, le_rfl, fun _ member => absurd member not_mem_nil⟩
  | cons name _ ih =>
    rw [bestBaseVersion]
    split
    · next same =>
      have ranks := equal_iff.mp same
      refine ⟨ofString name, rfl,
        .inr ⟨name, mem_cons_self, rfl, atMost_iff.mpr ranks.ge⟩, below.trans ranks.le, ?_⟩
      intro _ _ atMost
      exact (atMost_iff.mp atMost).trans ranks.le
    · next different =>
      split
      · next better =>
        rw [Bool.and_eq_true, lt_iff, lt_iff] at better
        obtain ⟨final, returned, origin, grown, above⟩ := ih better.1.le
        refine ⟨final, returned, ?_, better.2.le.trans grown, ?_⟩
        · rcases origin with same | ⟨other, member, same, atMost⟩
          · exact .inr ⟨name, mem_cons_self, same, atMost_iff.mpr better.1.le⟩
          · exact .inr ⟨other, mem_cons_of_mem _ member, same, atMost⟩
        · exact forall_mem_cons.mpr ⟨fun _ => grown, above⟩
      · next worse =>
        obtain ⟨final, returned, origin, grown, above⟩ := ih below
        refine ⟨final, returned, ?_, grown, ?_⟩
        · rcases origin with same | ⟨other, member, same, atMost⟩
          · exact .inl same
          · exact .inr ⟨other, mem_cons_of_mem _ member, same, atMost⟩
        · intro other member atMost
          rcases mem_cons.mp member with same | inRest
          · -- The version is lower than the software's, so it was not better than `best`.
            rw [same] at atMost ⊢
            have lower : (ofString name).rank < swVer.rank :=
              lt_of_le_of_ne (atMost_iff.mp atMost)
                (fun ranks => different (equal_iff.mpr ranks.symm))
            rw [Bool.and_eq_true, lt_iff, lt_iff] at worse
            have notBetter : ¬ best.rank < (ofString name).rank :=
              fun better => worse ⟨lower, better⟩
            exact (not_lt.mp notBetter).trans grown
          · exact above other inRest atMost

variable {baseVersions : List String}

theorem bestBaseVersion_of_dominated {best : SwVersion} (lower : best.rank < swVer.rank)
    (dominated : ∀ name ∈ baseVersions, AtMost swVer name → (ofString name).rank ≤ best.rank) :
    bestBaseVersion swVer baseVersions best = best.fullVersion := by
  induction baseVersions with
  | nil => rfl
  | cons name _ ih =>
    obtain ⟨here, later⟩ := forall_mem_cons.mp dominated
    have different : swVer.equal (ofString name) = false := by
      rw [Bool.eq_false_iff, Ne, equal_iff]
      intro ranks
      exact absurd (here (atMost_iff.mpr ranks.ge)) (not_le.mpr (ranks ▸ lower))
    have notBetter : ((ofString name).lt swVer && best.lt (ofString name)) = false := by
      rw [Bool.eq_false_iff, Ne, Bool.and_eq_true, lt_iff, lt_iff]
      rintro ⟨below, better⟩
      exact absurd (here (atMost_iff.mpr below.le)) (not_le.mpr better)
    rw [bestBaseVersion, different, notBetter]
    exact ih later

theorem rank_default_lt (major : 0 < swVer.majorVersion) :
    ({} : SwVersion).rank < swVer.rank :=
  Prod.Lex.toLex_lt_toLex.mpr (.inl major)

open ConfigMetadata AssocList EStateM

/-- What lies outside the code: the file system, the JSON parser and the serialisation library. -/
structure ConfigEnv where
  conv : Conversions
  /-- `folly::parseJson`. -/
  parseJson : String → Except String Dynamic
  /-- `JsonUtils::readJsonFile2DynamicObject`. -/
  readJsonFile : String → Except String Dynamic
  /-- Deserialising a `thrift::NodeConfig` from a JSON value. -/
  deserialize : Json → Except String Unit
  /-- Writing a value to a file and reading the file again. -/
  storeJsonFile : Dynamic → Except String Dynamic

inductive ConfigFile where
  | path (path : String)
  | loaded (config : JsonObject)

abbrev ConfigFiles := List (String × ConfigFile)

/-- `ConfigHelper`. -/
structure ConfigHelper where
  nodeConfigMeta : MetaMap := []
  baseConfigObjects : ConfigFiles := []
  latestBaseVersion : String := ""
  fwConfigObjects : ConfigFiles := []
  hwConfigObjects : List (String × ConfigFiles) := []
  latestHwBaseVersions : List (String × String) := []
  hardwareConfigTypeMap : List (String × String) := []
  nodeConfigOverridesFile : String := ""
  autoNodesOverrides : Dynamic := .object
  networkOverrides : Dynamic := .object
  nodesOverrides : Dynamic := .object

abbrev ConfigM := EStateM String ConfigHelper

/-! ### Override layers -/

def nodeLayer (nodeName : Option String) (given : Option Dynamic) (stored : Dynamic) :
    Option Dynamic :=
  nodeName.bind fun name => (given.getD stored).find name

def Dynamic.mergeOption (config : Dynamic) : Option Dynamic → Dynamic
  | none => config
  | some layer => config.merge layer

namespace ConfigHelper

/-- `ConfigHelper::getConfigOverridesForNode`. -/
def getConfigOverridesForNode (helper : ConfigHelper) (nodeName : Option String)
    (autoNodeOverrides networkOverrides nodeOverrides : Option Dynamic) : Dynamic :=
  let config := (nodeLayer nodeName autoNodeOverrides helper.autoNodesOverrides).getD .object
  let config := config.merge (networkOverrides.getD helper.networkOverrides)
  config.mergeOption (nodeLayer nodeName nodeOverrides helper.nodesOverrides)

end ConfigHelper

/-! ### Base configs -/

section

variable (env : ConfigEnv)

/-- The first part of `ConfigHelper::loadConfigFile`. -/
def readConfigObject (path : String) : Except String JsonObject := do
  let cfg ← env.readJsonFile path
  match cfg.toObject? with
  | none => throw "Not a JSON object"
  | some cfg => return cfg

/-- The second part of `ConfigHelper::loadConfigFile`: the full config must be well formed. -/
def checkFullConfig (nodeConfigMeta : MetaMap) (fullConfigObj : Json) : Except String Unit := do
  env.deserialize fullConfigObj
  let _ ← validate env.conv nodeConfigMeta fullConfigObj

/-- `ConfigHelper::loadConfigFile` without a software version. -/
def loadConfigFile (nodeConfigMeta : MetaMap) (path : String) : Except String JsonObject := do
  let cfg ← readConfigObject env path
  checkFullConfig env nodeConfigMeta cfg.toJson
  return cfg

def orEmpty : Except String JsonObject → JsonObject
  | .ok config => config
  | .error _ => .empty

/-- The config of a version, with the map in which it is loaded. -/
def ConfigFiles.fetch (files : ConfigFiles) (ver : String)
    (load : String → Except String JsonObject) : JsonObject × ConfigFiles :=
  match find ver files with
  | none => (.empty, files)
  | some (.loaded config) => (config, files)
  | some (.path path) =>
    let config := orEmpty (load path)
    (config, upsert (.loaded config) ver (fun _ => .loaded config) files)

def baseVersion (swVer : SwVersion) (files : ConfigFiles) (defaultVersion : String) : String :=
  (matchBaseVersion swVer (keys files)).getD defaultVersion

namespace ConfigHelper

variable (helper : ConfigHelper)

/-- `ConfigHelper::getBaseConfig` for `baseConfigObjects_`. -/
def getBaseConfig (swVer : SwVersion) : JsonObject × ConfigHelper :=
  let ver := baseVersion swVer helper.baseConfigObjects helper.latestBaseVersion
  let fetched := helper.baseConfigObjects.fetch ver (loadConfigFile env helper.nodeConfigMeta)
  (fetched.1, { helper with baseConfigObjects := fetched.2 })

/-- `ConfigHelper::buildNodeConfig` for a software version only. -/
def buildVersionConfig (swVersion : String) : Dynamic × ConfigHelper :=
  let base := helper.getBaseConfig env (SwVersion.ofString swVersion)
  (base.1.toDynamic.merge (base.2.getConfigOverridesForNode none none none none), base.2)

/-- `ConfigHelper::loadConfigFile` with a software version, whose config has to be well formed. -/
def loadHwConfigFile (path ver : String) : JsonObject × ConfigHelper :=
  match readConfigObject env path with
  | .error _ => (.empty, helper)
  | .ok cfg =>
    let full := helper.buildVersionConfig env ver
    match checkFullConfig env helper.nodeConfigMeta full.1.json with
    | .error _ => (.empty, full.2)
    | .ok () => (cfg, full.2)

/-- `ConfigHelper::getBaseConfig` for one of the maps in `hwConfigObjects_`. -/
def getHwBaseConfig (hwType : String) (files : ConfigFiles)
    (swVer : SwVersion) : JsonObject × ConfigHelper :=
  let hwDefaultVer := (find hwType helper.latestHwBaseVersions).getD ""
  let ver := baseVersion swVer files hwDefaultVer
  match find ver files with
  | none => (.empty, helper)
  | some (.loaded config) => (config, helper)
  | some (.path path) =>
    let loaded := helper.loadHwConfigFile env path ver
    let files := upsert (.loaded loaded.1) ver (fun _ => .loaded loaded.1) files
    (loaded.1, { loaded.2 with
      hwConfigObjects := upsert [] hwType (fun _ => files) loaded.2.hwConfigObjects })

/-- The hardware base config of a board, if there is one. -/
def getHardwareConfig (hwBoardId : Option String) (swVer : SwVersion) :
    Option JsonObject × ConfigHelper :=
  match hwBoardId.bind fun id => find id helper.hardwareConfigTypeMap with
  | none => (none, helper)
  | some hwType =>
    match find hwType helper.hwConfigObjects with
    | none => (none, helper)
    | some files =>
      let config := helper.getHwBaseConfig env hwType files swVer
      (some config.1, config.2)

/-- `ConfigHelper::getFirmwareConfig`. -/
def getFirmwareConfig (fwVer : String) : Except String (JsonObject × ConfigHelper) := do
  match ← matchFirmwareVersion fwVer (keys helper.fwConfigObjects) with
  | none => return (.empty, helper)
  | some ver =>
    let fetched := helper.fwConfigObjects.fetch ver (loadConfigFile env helper.nodeConfigMeta)
    return (fetched.1, { helper with fwConfigObjects := fetched.2 })

/-- `ConfigHelper::isUnknownHardware`. -/
def isUnknownHardware (hwBoardId swVersion : String) : Bool :=
  match find hwBoardId helper.hardwareConfigTypeMap with
  | none => true
  | some hwType =>
    match find hwType helper.hwConfigObjects with
    | none => true
    | some files =>
      (matchBaseVersion (SwVersion.ofString swVersion) (keys files)).isNone

end ConfigHelper

/-- The firmware layer, if a firmware version is given. -/
def firmwareConfig (fwVersion : Option String) : ConfigM (Option JsonObject) := do
  match fwVersion with
  | none => return none
  | some fwVer =>
    match (← get).getFirmwareConfig env fwVer with
    | .error text => throw text
    | .ok (config, helper) =>
      set helper
      return some config

/-- `ConfigHelper::buildNodeConfig`. -/
def buildNodeConfig (nodeName : Option String) (swVersion : String)
    (fwVersion hwBoardId : Option String)
    (autoNodeOverrides networkOverrides nodeOverrides : Option Dynamic) : ConfigM Dynamic := do
  let version := SwVersion.ofString swVersion
  let base ← modifyGet fun helper => helper.getBaseConfig env version
  let config := base.toDynamic
  let fwConfig ← firmwareConfig env fwVersion
  let config := config.mergeOption (fwConfig.map JsonObject.toDynamic)
  let hwConfig ← modifyGet fun helper => helper.getHardwareConfig env hwBoardId version
  let config := config.mergeOption (hwConfig.map JsonObject.toDynamic)
  let helper ← get
  return config.merge
    (helper.getConfigOverridesForNode nodeName autoNodeOverrides networkOverrides nodeOverrides)

/-! ### Loading leaves everything but the base configs as it is -/

/-- The two helpers differ at most in their base configs. -/
structure Kept (helper helper' : ConfigHelper) : Prop where
  nodeConfigMeta : helper'.nodeConfigMeta = helper.nodeConfigMeta
  latestBaseVersion : helper'.latestBaseVersion = helper.latestBaseVersion
  autoNodesOverrides : helper'.autoNodesOverrides = helper.autoNodesOverrides
  networkOverrides : helper'.networkOverrides = helper.networkOverrides
  nodesOverrides : helper'.nodesOverrides = helper.nodesOverrides

namespace Kept

variable {env} (helper : ConfigHelper)

theorem refl : Kept helper helper := ⟨rfl, rfl, rfl, rfl, rfl⟩

theorem trans {first second third : ConfigHelper} (one : Kept first second)
    (two : Kept second third) : Kept first third :=
  ⟨two.1.trans one.1, two.2.trans one.2, two.3.trans one.3, two.4.trans one.4, two.5.trans one.5⟩

theorem getBaseConfig (swVer : SwVersion) : Kept helper (helper.getBaseConfig env swVer).2 :=
  ⟨rfl, rfl, rfl, rfl, rfl⟩

theorem loadHwConfigFile (path ver : String) :
    Kept helper (helper.loadHwConfigFile env path ver).2 := by
  rw [ConfigHelper.loadHwConfigFile]
  split
  · exact refl helper
  · simp only
    split
    · exact getBaseConfig helper _
    · exact getBaseConfig helper _

theorem getHwBaseConfig (hwType : String) (files : ConfigFiles)
    (swVer : SwVersion) : Kept helper (helper.getHwBaseConfig env hwType files swVer).2 := by
  rw [ConfigHelper.getHwBaseConfig]
  split
  · exact refl helper
  · exact refl helper
  · exact (loadHwConfigFile helper _ _).trans ⟨rfl, rfl, rfl, rfl, rfl⟩

theorem getHardwareConfig (hwBoardId : Option String) (swVer : SwVersion) :
    Kept helper (helper.getHardwareConfig env hwBoardId swVer).2 := by
  rw [ConfigHelper.getHardwareConfig]
  split
  · exact refl helper
  · split
    · exact refl helper
    · exact getHwBaseConfig helper _ _ swVer

variable {helper' : ConfigHelper} {helper}

theorem getFirmwareConfig {fwVer : String} {config : JsonObject}
    (returned : helper.getFirmwareConfig env fwVer = .ok (config, helper')) :
    Kept helper helper' := by
  rw [ConfigHelper.getFirmwareConfig] at returned
  cases matched : matchFirmwareVersion fwVer (keys helper.fwConfigObjects) with
  | error =>
    rw [matched] at returned
    cases returned
  | ok ver =>
    rw [matched] at returned
    cases ver with
    | none =>
      cases returned
      exact refl helper
    | some =>
      cases returned
      exact ⟨rfl, rfl, rfl, rfl, rfl⟩

theorem firmwareConfig {fwVersion : Option String} {config : Option JsonObject}
    (returned : (firmwareConfig env fwVersion).run helper = .ok config helper') :
    Kept helper helper' := by
  cases fwVersion with
  | none =>
    cases returned
    exact refl helper
  | some fwVer =>
    rw [Terragraph.firmwareConfig, run_bind, run_get] at returned
    simp only at returned
    cases got : helper.getFirmwareConfig env fwVer with
    | error =>
      rw [got] at returned
      cases returned
    | ok =>
      rw [got] at returned
      cases returned
      exact getFirmwareConfig got

end Kept

/-! ### A base config is loaded once -/

theorem ConfigFiles.keys_fetch (files : ConfigFiles) (ver : String)
    (load : String → Except String JsonObject) :
    keys (files.fetch ver load).2 = keys files := by
  rw [ConfigFiles.fetch]
  split
  · rfl
  · rfl
  · next _ found =>
    have member : ver ∈ keys files := by
      rw [← find_ne_none_iff, found]
      exact Option.some_ne_none _
    rw [keys_upsert, if_pos member]

theorem ConfigFiles.fetch_again (files : ConfigFiles) (ver : String)
    (load load' : String → Except String JsonObject) :
    (files.fetch ver load).2.fetch ver load' = files.fetch ver load := by
  cases found : find ver files with
  | none => simp only [ConfigFiles.fetch, found]
  | some file =>
    cases file with
    | loaded => simp only [ConfigFiles.fetch, found]
    | path path =>
      have loaded : (files.fetch ver load).2 = upsert (.loaded (orEmpty (load path))) ver
          (fun _ => .loaded (orEmpty (load path))) files := by
        rw [ConfigFiles.fetch, found]
      have again : find ver (files.fetch ver load).2 = some (.loaded (orEmpty (load path))) := by
        rw [loaded, find_upsert, if_pos rfl]
      conv_lhs => rw [ConfigFiles.fetch, again]
      simp only [ConfigFiles.fetch, found]

namespace ConfigHelper

variable (helper : ConfigHelper)

def latestBase : Dynamic :=
  (helper.getBaseConfig env (SwVersion.ofString "")).1.toDynamic

def withBase : ConfigHelper :=
  (helper.getBaseConfig env (SwVersion.ofString "")).2

theorem latestBase_withBase : (helper.withBase env).latestBase env = helper.latestBase env := by
  simp only [latestBase, withBase, getBaseConfig, baseVersion, ConfigFiles.keys_fetch,
    ConfigFiles.fetch_again]

end ConfigHelper

theorem run_buildNodeConfig (helper : ConfigHelper) (nodeName : Option String)
    (autoNodeOverrides networkOverrides nodeOverrides : Dynamic) :
    (buildNodeConfig env nodeName "" none none (some autoNodeOverrides) (some networkOverrides)
      (some nodeOverrides)).run helper =
    .ok ((helper.latestBase env).merge (helper.getConfigOverridesForNode nodeName
      (some autoNodeOverrides) (some networkOverrides) (some nodeOverrides)))
      (helper.withBase env) := rfl

end

open List

namespace ConfigHelper

/-- The override layers of a node from the lowest to the highest. -/
def overrideLayers (helper : ConfigHelper) (nodeName : Option String)
    (autoNodeOverrides networkOverrides nodeOverrides : Option Dynamic) : List Dynamic :=
  (nodeLayer nodeName autoNodeOverrides helper.autoNodesOverrides).toList ++
    networkOverrides.getD helper.networkOverrides ::
    (nodeLayer nodeName nodeOverrides helper.nodesOverrides).toList

end ConfigHelper

/-- The config of a node as it is meant: the layers, each merged into the ones before. -/
def layeredNodeConfig (env : ConfigEnv) (nodeName : Option String) (swVersion : String)
    (fwVersion hwBoardId : Option String)
    (autoNodeOverrides networkOverrides nodeOverrides : Option Dynamic) : ConfigM Dynamic := do
  let version := SwVersion.ofString swVersion
  let base ← modifyGet fun helper => helper.getBaseConfig env version
  let fwConfig ← firmwareConfig env fwVersion
  let hwConfig ← modifyGet fun helper => helper.getHardwareConfig env hwBoardId version
  let helper ← get
  let overrides :=
    helper.overrideLayers nodeName autoNodeOverrides networkOverrides nodeOverrides
  return (fwConfig.toList.map JsonObject.toDynamic ++ hwConfig.toList.map JsonObject.toDynamic ++
    overrides).foldl Dynamic.merge base.toDynamic

/-- Two runs end alike, up to the order of members in the configs. -/
def SameOutcome : EStateM.Result String ConfigHelper Dynamic →
    EStateM.Result String ConfigHelper Dynamic → Prop
  | .ok config helper, .ok config' helper' => Json.Same config.json config'.json ∧ helper = helper'
  | .error text helper, .error text' helper' => text = text' ∧ helper = helper'
  | _, _ => False

variable (config : Dynamic)

theorem mergeOption_eq_foldl (layer : Option JsonObject) :
    config.mergeOption (layer.map JsonObject.toDynamic) =
      (layer.toList.map JsonObject.toDynamic).foldl Dynamic.merge config := by
  cases layer with
  | none | some layer => rfl

theorem foldl_mergeOption (layer : Option Dynamic) :
    layer.toList.foldl Dynamic.merge config = config.mergeOption layer := by
  cases layer with
  | none | some layer => rfl

theorem merge_mergeOption (layers : Dynamic) (isObject : layers.isObject = true)
    (layer : Option Dynamic) :
    Json.Same (config.merge (layers.mergeOption layer)).json
      ((config.merge layers).mergeOption layer).json := by
  cases layer with
  | none => exact .refl _
  | some layer => exact (Json.merge_assoc isObject layers.unique layer.unique).symm

theorem mergeOption_congr {config config' : Dynamic} (same : Json.Same config.json config'.json)
    (layer : Option Dynamic) :
    Json.Same (config.mergeOption layer).json (config'.mergeOption layer).json := by
  cases layer with
  | none => exact same
  | some layer => exact same.merge (.refl _) layer.unique layer.unique

variable {autoNodeOverrides : Option Dynamic} {nodeName : Option String}

theorem merge_overrides (helper : ConfigHelper)
    (networkOverrides nodeOverrides : Option Dynamic) (config : Dynamic)
    (autoObject : ∀ layer, nodeLayer nodeName autoNodeOverrides helper.autoNodesOverrides =
      some layer → layer.isObject = true) :
    Json.Same
      (config.merge (helper.getConfigOverridesForNode nodeName autoNodeOverrides networkOverrides
        nodeOverrides)).json
      ((helper.overrideLayers nodeName autoNodeOverrides networkOverrides nodeOverrides).foldl
        Dynamic.merge config).json := by
  rw [ConfigHelper.getConfigOverridesForNode, ConfigHelper.overrideLayers, foldl_append,
    foldl_cons, foldl_mergeOption, foldl_mergeOption]
  generalize networkOverrides.getD helper.networkOverrides = network
  generalize nodeLayer nodeName nodeOverrides helper.nodesOverrides = user
  -- The auto layer, or an empty object in its place, absorbs the layers above it.
  cases layer : nodeLayer nodeName autoNodeOverrides helper.autoNodesOverrides with
  | none =>
    have started : Json.Same (config.merge (Dynamic.object.merge network)).json
        (config.merge network).json := by
      have moved := Json.merge_assoc (a := config.json) (b := Dynamic.object.json) rfl rfl
        network.unique
      rw [show Dynamic.object.json = Json.object [] from rfl, Json.merge_empty] at moved
      exact moved.symm
    have merged : (Dynamic.object.merge network).isObject = true := Json.isObject_merge _ _
    exact (merge_mergeOption config _ merged user).trans (mergeOption_congr started user)
  | some auto =>
    have isObject := autoObject auto layer
    have merged : (auto.merge network).isObject = true := (Json.isObject_merge _ _).trans isObject
    have started : Json.Same (config.merge (auto.merge network)).json
        ((config.merge auto).merge network).json :=
      (Json.merge_assoc isObject auto.unique network.unique).symm
    exact (merge_mergeOption config _ merged user).trans (mergeOption_congr started user)

/-- Building the config of a node is merging its layers one after the other. -/
theorem buildNodeConfig_sameOutcome (env : ConfigEnv) (helper : ConfigHelper)
    (swVersion : String) (fwVersion hwBoardId : Option String)
    (networkOverrides nodeOverrides : Option Dynamic)
    (autoObject : ∀ layer, nodeLayer nodeName autoNodeOverrides helper.autoNodesOverrides =
      some layer → layer.isObject = true) :
    SameOutcome ((buildNodeConfig env nodeName swVersion fwVersion hwBoardId autoNodeOverrides
        networkOverrides nodeOverrides).run helper)
      ((layeredNodeConfig env nodeName swVersion fwVersion hwBoardId autoNodeOverrides
        networkOverrides nodeOverrides).run helper) := by
  rw [buildNodeConfig, layeredNodeConfig]
  simp only [run_bind, run_modifyGet]
  generalize based : helper.getBaseConfig env (SwVersion.ofString swVersion) = base
  cases fetched : (firmwareConfig env fwVersion).run base.2 with
  | error => exact ⟨rfl, rfl⟩
  | ok _ loaded =>
    have kept : Kept helper (loaded.getHardwareConfig env hwBoardId (.ofString swVersion)).2 := by
      have afterBase : Kept helper base.2 := based ▸ .getBaseConfig helper _
      exact (afterBase.trans (.firmwareConfig fetched)).trans (.getHardwareConfig loaded _ _)
    refine ⟨?_, rfl⟩
    rw [foldl_append, foldl_append, ← mergeOption_eq_foldl, ← mergeOption_eq_foldl]
    apply merge_overrides
    rw [kept.autoNodesOverrides]
    exact autoObject

/-- Merging objects is associative with the empty object as identity and idempotent, and the config
of a node is what merging its layers one after the other gives. -/
theorem layers_merge_in_order (a b c : JsonObject) (env : ConfigEnv) (helper : ConfigHelper)
    (nodeName : Option String) (swVersion : String) (fwVersion hwBoardId : Option String)
    (autoNodeOverrides networkOverrides nodeOverrides : Option Dynamic)
    (autoObject : ∀ layer, nodeLayer nodeName autoNodeOverrides helper.autoNodesOverrides =
      some layer → layer.isObject = true) :
    Json.Same ((a.toDynamic.merge b.toDynamic).merge c.toDynamic).json
        (a.toDynamic.merge (b.toDynamic.merge c.toDynamic)).json ∧
      Json.Same (a.toDynamic.merge .object).json a.toJson ∧
      Json.Same (Dynamic.object.merge a.toDynamic).json a.toJson ∧
      Json.Same (a.toDynamic.merge a.toDynamic).json a.toJson ∧
      SameOutcome ((buildNodeConfig env nodeName swVersion fwVersion hwBoardId autoNodeOverrides
          networkOverrides nodeOverrides).run helper)
        ((layeredNodeConfig env nodeName swVersion fwVersion hwBoardId autoNodeOverrides
          networkOverrides nodeOverrides).run helper) := by
  refine ⟨?_, ?_, ?_, ?_, ?_⟩
  · exact Json.merge_assoc rfl b.unique c.unique
  · exact (Json.merge_empty a.toJson).symm ▸ .refl _
  · exact Json.empty_merge rfl a.unique
  · exact Json.merge_self a.unique
  · exact buildNodeConfig_sameOutcome env helper swVersion fwVersion hwBoardId networkOverrides
      nodeOverrides autoObject

/-- An environment without files, in which every config can be deserialised. -/
def ConfigEnv.withoutFiles : ConfigEnv where
  conv :=
    { regexMatch := fun pattern value => pattern == value
      tryToInt := fun _ => none
      tryToDouble := fun _ => none
      asDouble := fun number => .ok number
      doubleText := fun _ => "" }
  parseJson := fun _ => .error "no parser"
  readJsonFile := fun _ => .error "no file"
  deserialize := fun _ => .ok ()
  storeJsonFile := fun value => .ok value

/-- The network layer replaces a value of the automatic layer, and the node layer adds to it. -/
def threeLayers : ConfigHelper where
  autoNodesOverrides := ⟨.object [("node", .object [("radio", .object [("channel", .int 1)])])], by decide⟩
  networkOverrides := ⟨.object [("radio", .object [("channel", .int 2)])], by decide⟩
  nodesOverrides := ⟨.object [("node", .object [("radio", .object [("golay", .int 3)])])], by decide⟩

/-- A node with automatic, network and node overrides. -/
theorem threeLayers_merge_in_order : SameOutcome
      ((buildNodeConfig .withoutFiles (some "node") "" none none none none none).run threeLayers)
      ((layeredNodeConfig .withoutFiles (some "node") "" none none none none none).run threeLayers) :=
  (layers_merge_in_order .empty .empty .empty .withoutFiles threeLayers (some "node") "" none none
    none none none (by
      intro _ found
      cases found
      rfl)).2.2.2.2

open SwVersion List

/-- The selection as it is meant: the exact version; else a greatest one that does not exceed the
software version, always the same; else none, so that the default version is used. -/
structure SelectsBaseVersion (swVersion : String) (baseVersions : List String) : Prop where
  exact : (ofString swVersion).fullVersion ∈ baseVersions →
    ∀ order : List String, order.Perm baseVersions →
      matchBaseVersion (ofString swVersion) order = some (ofString swVersion).fullVersion
  greatest : (ofString swVersion).fullVersion ∉ baseVersions →
    (∃ name ∈ baseVersions, AtMost (ofString swVersion) name) →
    ∃ name ∈ baseVersions, AtMost (ofString swVersion) name ∧
      (∀ other ∈ baseVersions, AtMost (ofString swVersion) other →
        (ofString name).lt (ofString other) = false) ∧
      ∀ order : List String, order.Perm baseVersions →
        matchBaseVersion (ofString swVersion) order = some name
  none : (∀ name ∈ baseVersions, ¬ AtMost (ofString swVersion) name) →
    ∀ files : ConfigFiles, (keys files).Perm baseVersions →
      matchBaseVersion (ofString swVersion) (keys files) = none ∧
      (∀ (env : ConfigEnv) (helper : ConfigHelper), helper.baseConfigObjects = files →
        (helper.getBaseConfig env (ofString swVersion)).1 =
          (files.fetch helper.latestBaseVersion (loadConfigFile env helper.nodeConfigMeta)).1) ∧
      ∀ (helper : ConfigHelper) (hwBoardId hwType : String),
        find hwBoardId helper.hardwareConfigTypeMap = some hwType →
        find hwType helper.hwConfigObjects = some files →
        helper.isUnknownHardware hwBoardId swVersion = true

/-- The exact version is there, or one that does not exceed the software version and exceeds all
others of that kind, up to white space around their names. -/
def HasBestBaseVersion (swVersion : String) (baseVersions : List String) : Prop :=
  (ofString swVersion).fullVersion ∈ baseVersions ∨
    ∃ name ∈ baseVersions, AtMost (ofString swVersion) name ∧
      ∀ other ∈ baseVersions, AtMost (ofString swVersion) other →
        (ofString other).lt (ofString name) = true ∨ (ofString other).fullVersion = name

theorem matchBaseVersion_of_major (major : 0 < swVer.majorVersion)
    (absent : swVer.fullVersion ∉ baseVersions) :
    matchBaseVersion swVer baseVersions = some (bestBaseVersion swVer baseVersions {}) := by
  rw [matchBaseVersion, if_neg absent, if_pos major]

/-- The one version that exceeds all others is selected in every order. -/
theorem bestBaseVersion_of_best {name : String}
    (major : 0 < swVer.majorVersion) (member : name ∈ baseVersions) (atMost : AtMost swVer name)
    (best : ∀ other ∈ baseVersions, AtMost swVer other →
      (ofString other).lt (ofString name) = true ∨ (ofString other).fullVersion = name) :
    bestBaseVersion swVer baseVersions {} = name := by
  obtain ⟨_, returned, origin, _, above⟩ :=
    bestBaseVersion_spec (rank_default_lt major).le baseVersions
  have nameBelow := above name member atMost
  rw [returned]
  rcases origin with started | ⟨other, isOther, same, otherAtMost⟩
  · -- No version was better than the one the loop starts from, so the name is empty.
    rw [started] at nameBelow ⊢
    have trimmed : (ofString name).fullVersion = name := by
      rcases best name member atMost with lower | trimmed
      · exact absurd (lt_iff.mp lower) (lt_irrefl _)
      · exact trimmed
    rw [← trimmed]
    exact (fullVersion_of_not_default_lt (lt_eq_false_iff.mpr nameBelow)).symm
  · rw [same] at nameBelow ⊢
    rcases best other isOther otherAtMost with lower | isName
    · exact absurd nameBelow (not_le.mpr (lt_iff.mp lower))
    · exact isName

theorem bestBaseVersion_first {rest : List String} {first : String} (major : 0 < swVer.majorVersion)
    (atMost : AtMost swVer first)
    (greatest : ∀ other ∈ rest, AtMost swVer other → (ofString other).rank ≤ (ofString first).rank) :
    bestBaseVersion swVer (first :: rest) {} = (ofString first).fullVersion := by
  rw [bestBaseVersion]
  split
  · rfl
  · next different =>
    have lower : (ofString first).rank < swVer.rank :=
      lt_of_le_of_ne (atMost_iff.mp atMost) (fun ranks => different (equal_iff.mpr ranks.symm))
    split
    · exact bestBaseVersion_of_dominated lower greatest
    · next notBetter =>
      rw [Bool.and_eq_true, not_and] at notBetter
      have least : ({} : SwVersion).lt (ofString first) = false :=
        Bool.eq_false_iff.mpr (notBetter (lt_iff.mpr lower))
      have below := lt_eq_false_iff.mp least
      rw [fullVersion_of_not_default_lt least]
      apply bestBaseVersion_of_dominated (rank_default_lt major)
      intro other member otherAtMost
      exact (greatest other member otherAtMost).trans below

/-- The selection is the intended one exactly if there is one best base version. -/
theorem selectsBaseVersion_iff (swVersion : String) (baseVersions : List String)
    (major : 0 < (ofString swVersion).majorVersion) :
    SelectsBaseVersion swVersion baseVersions ↔ HasBestBaseVersion swVersion baseVersions := by
  constructor
  · intro selects
    by_cases present : (ofString swVersion).fullVersion ∈ baseVersions
    · exact .inl present
    · right
      by_cases candidate : ∃ name ∈ baseVersions, AtMost (ofString swVersion) name
      · obtain ⟨name, member, atMost, greatest, always⟩ := selects.greatest present candidate
        refine ⟨name, member, atMost, ?_⟩
        intro other isOther otherAtMost
        by_cases lower : (ofString other).lt (ofString name) = true
        · exact .inl lower
        · -- The other version is a greatest one, too, and would be selected if it came first.
          right
          have nameBelow : (ofString name).rank ≤ (ofString other).rank :=
            not_lt.mp (fun below => lower (lt_iff.mpr below))
          have perm : (other :: baseVersions.erase other).Perm baseVersions :=
            (perm_cons_erase isOther).symm
          have selected := always _ perm
          rw [matchBaseVersion_of_major major (fun inside => present (perm.mem_iff.mp inside)),
            bestBaseVersion_first major otherAtMost] at selected
          · exact Option.some.inj selected
          · intro third inRest thirdAtMost
            have isThird := perm.mem_iff.mp (mem_cons_of_mem other inRest)
            exact (lt_eq_false_iff.mp (greatest third isThird thirdAtMost)).trans nameBelow
      · -- Without a candidate the code returns an empty version where there should be none.
        exfalso
        have keys : keys (baseVersions.map fun name => (name, ConfigFile.path "")) =
            baseVersions := by
          rw [AssocList.keys, map_map]
          exact map_id _
        have missing := (selects.none
          (fun name member atMost => candidate ⟨name, member, atMost⟩) _ (List.Perm.of_eq keys)).1
        rw [keys, matchBaseVersion_of_major major present] at missing
        cases missing
  · intro hasBest
    have someAtMost : ∃ name ∈ baseVersions, AtMost (ofString swVersion) name := by
      rcases hasBest with present | ⟨name, member, atMost, _⟩
      · exact ⟨_, present, by rw [atMost_iff, ofString_fullVersion]⟩
      · exact ⟨name, member, atMost⟩
    constructor
    · intro present _ perm
      rw [matchBaseVersion, if_pos (perm.mem_iff.mpr present)]
    · intro absent _
      rcases hasBest with present | ⟨name, member, atMost, best⟩
      · exact absurd present absent
      · refine ⟨name, member, atMost, ?_, ?_⟩
        · intro other isOther otherAtMost
          rw [lt_eq_false_iff]
          rcases best other isOther otherAtMost with lower | same
          · exact (lt_iff.mp lower).le
          · rw [← same, ofString_fullVersion]
        · intro _ perm
          rw [matchBaseVersion_of_major major (fun inside => absent (perm.mem_iff.mp inside))]
          rw [bestBaseVersion_of_best major (perm.mem_iff.mpr member) atMost]
          intro other inOrder
          exact best other (perm.mem_iff.mp inOrder)
    · intro none
      obtain ⟨name, member, atMost⟩ := someAtMost
      exact absurd atMost (none name member)

/-- Of three base versions, the newest that is not newer is selected. -/
theorem selectsBaseVersion_of_older :
    SelectsBaseVersion "RELEASE_M20_2" ["RELEASE_M20_1", "RELEASE_M21", "RELEASE_M19"] :=
  (selectsBaseVersion_iff "RELEASE_M20_2" ["RELEASE_M20_1", "RELEASE_M21", "RELEASE_M19"]
    (by decide +kernel)).mpr (.inr ⟨"RELEASE_M20_1", by decide +kernel⟩)

/-- Without an old enough base version the empty one is selected, and of equals the first visited.
-/
theorem selectsBaseVersion_fails : ¬ SelectsBaseVersion "RELEASE_M20" ["RELEASE_M21"] ∧
      matchBaseVersion (ofString "RELEASE_M20") ["RELEASE_M21"] = some "" ∧
      ¬ SelectsBaseVersion "RELEASE_M20_1" ["RELEASE_M20_1_a", "RELEASE_M20_1_b"] ∧
      matchBaseVersion (ofString "RELEASE_M20_1") ["RELEASE_M20_1_a", "RELEASE_M20_1_b"] =
        some "RELEASE_M20_1_a" ∧
      matchBaseVersion (ofString "RELEASE_M20_1") ["RELEASE_M20_1_b", "RELEASE_M20_1_a"] =
        some "RELEASE_M20_1_b" := by
  refine ⟨?_, by decide +kernel, ?_, by decide +kernel, by decide +kernel⟩
  · intro selects
    have missing := (selects.none (by decide +kernel) [("RELEASE_M21", .path "")] (.refl _)).1
    revert missing
    decide +kernel
  · intro selects
    obtain ⟨_, _, _, _, always⟩ := selects.greatest (by decide +kernel) (by decide +kernel)
    have first := always ["RELEASE_M20_1_a", "RELEASE_M20_1_b"] (.refl _)
    have second := always ["RELEASE_M20_1_b", "RELEASE_M20_1_a"] (.swap _ _ _)
    have same := first.trans second.symm
    revert same
    decide +kernel

end Terragraph
