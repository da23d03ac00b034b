/-
Module: Terragraph.Config.Json
Purpose: JSON values as `folly::dynamic` holds them, up to the order of members, and
  `JsonUtils::dynamicObjectMerge`, which puts one layer of a config over another.
Trusted boundary: human-reviewed embedding of `folly::dynamic` and `JsonUtils.cpp`; a double is a
  rational number
Main exports: Json, Json.dynamicObjectMerge, JsonObject.merge
-/
import Terragraph.Lib.AssocList

namespace Terragraph

open AssocList List Bool

/-- `folly::dynamic`.  Members of an object stand in the order in which the source iterates over
them. -/
inductive Json where
  | null
  | bool (value : Bool)
  | int (value : Int)
  | double (value : Rat)
  | string (value : String)
  | array (items : List Json)
  | object (members : List (String × Json))

variable {first second : Json}

namespace Json

/-- `isObject`. -/
def isObject : Json → Bool
  | .object _ => true
  | _ => false

def members : Json → List (String × Json)
  | .object members => members
  | _ => []

/-- `find` of an object. -/
def find (key : String) (json : Json) : Option Json :=
  AssocList.find key json.members

def atPath : List String → Json → Option Json
  | [], json => some json
  | key :: path, json => (json.find key).bind (atPath path)

def leaf (json : Json) : Option Json :=
  if json.isObject then none else some json

def peek (path : List String) (json : Json) : Option (Option Json) :=
  (json.atPath path).map leaf

def Same (first second : Json) : Prop :=
  ∀ path, first.peek path = second.peek path

namespace Same

theorem refl (json : Json) : Same json json := fun _ => rfl

theorem symm (same : Same first second) : Same second first :=
  fun path => (same path).symm

theorem trans {first second third : Json} (one : Same first second) (two : Same second third) :
    Same first third :=
  fun path => (one path).trans (two path)

end Same

/-! ### Lookups -/

variable {json : Json}

theorem eq_object_of_isObject (isObject : json.isObject = true) : json = .object json.members := by
  cases json with
  | object => rfl
  | _ => cases isObject

theorem members_of_not_isObject (notObject : json.isObject = false) : json.members = [] := by
  cases json with
  | object => cases notObject
  | _ => rfl

@[simp] theorem find_object (key : String) (members : List (String × Json)) :
    (Json.object members).find key = AssocList.find key members := rfl

theorem find_of_not_isObject (notObject : json.isObject = false) (key : String) :
    json.find key = none := by
  rw [find, members_of_not_isObject notObject]
  rfl

variable {value : Json} {key : String}

theorem isObject_of_find (found : json.find key = some value) : json.isObject = true := by
  by_contra notObject
  rw [find_of_not_isObject (eq_false_iff.mpr notObject)] at found
  cases found

@[simp] theorem atPath_nil (json : Json) : json.atPath [] = some json := rfl

theorem atPath_cons (key : String) (path : List String) (json : Json) :
    json.atPath (key :: path) = (json.find key).bind (atPath path) := rfl

theorem bind_atPath_nil (value : Option Json) : value.bind (atPath []) = value :=
  Option.bind_fun_some value

theorem bind_atPath_cons (key : String) (path : List String) (value : Option Json) :
    value.bind (atPath (key :: path)) = (value.bind (find key)).bind (atPath path) :=
  (Option.bind_assoc _ _ _).symm

theorem atPath_append (path rest : List String) (json : Json) :
    json.atPath (path ++ rest) = (json.atPath path).bind (atPath rest) := by
  induction path generalizing json with
  | nil => rfl
  | cons key _ ih =>
    rw [cons_append, atPath_cons, atPath_cons]
    cases json.find key with
    | none => rfl
    | some value => exact ih value

@[simp] theorem peek_nil (json : Json) : json.peek [] = some json.leaf := rfl

theorem peek_cons (key : String) (path : List String) (json : Json) :
    json.peek (key :: path) = (json.find key).bind (peek path) := by
  rw [peek, atPath_cons, Option.map_bind]
  rfl

theorem leaf_of_isObject (isObject : json.isObject = true) : json.leaf = none :=
  if_pos isObject

theorem leaf_of_not_isObject (notObject : json.isObject = false) : json.leaf = some json :=
  if_neg (eq_false_iff.mp notObject)

theorem isNone_leaf (json : Json) : json.leaf.isNone = json.isObject := by
  unfold leaf
  cases json.isObject with
  | true | false => rfl

theorem Same.of_find (leaves : first.leaf = second.leaf)
    (finds : ∀ key path, (first.find key).bind (peek path) = (second.find key).bind (peek path)) :
    Same first second := by
  intro path
  cases path with
  | nil => rw [peek_nil, peek_nil, leaves]
  | cons => rw [peek_cons, peek_cons, finds]

theorem Same.leaf_eq (same : Same first second) : first.leaf = second.leaf :=
  Option.some.inj (same [])

theorem Same.isObject_eq (same : Same first second) : first.isObject = second.isObject := by
  rw [← isNone_leaf, same.leaf_eq, isNone_leaf]

theorem Same.eq_of_not_isObject (same : Same first second) (notObject : first.isObject = false) :
    first = second := by
  have leaves := same.leaf_eq
  rw [leaf_of_not_isObject notObject, leaf_of_not_isObject (same.isObject_eq ▸ notObject)] at leaves
  exact Option.some.inj leaves

/-! ### Values along a path -/

theorem atPath_of_not_isObject (notObject : json.isObject = false) (key : String)
    (path : List String) : json.atPath (key :: path) = none := by
  rw [atPath_cons, find_of_not_isObject notObject]
  rfl

variable {path : List String}

theorem isObject_of_atPath (reached : json.atPath (key :: path) = some value) :
    json.isObject = true := by
  by_contra notObject
  rw [atPath_of_not_isObject (eq_false_iff.mpr notObject)] at reached
  cases reached

theorem Same.atPath (same : Same first second) (reached : first.atPath path = some value) :
    ∃ value', second.atPath path = some value' ∧ Same value value' := by
  have shown := same path
  rw [peek, peek, reached] at shown
  cases reached' : second.atPath path with
  | none =>
    rw [reached'] at shown
    cases shown
  | some value' =>
    refine ⟨value', rfl, ?_⟩
    intro rest
    have below := same (path ++ rest)
    rw [peek, peek, atPath_append, atPath_append, reached, reached'] at below
    exact below

theorem Same.atPath_leaf (same : Same first second) (notObject : value.isObject = false)
    (reached : first.atPath path = some value) : second.atPath path = some value := by
  obtain ⟨_, reached', sameValue⟩ := same.atPath reached
  rw [reached', sameValue.eq_of_not_isObject notObject]

/-! ### Distinct keys -/

mutual

def uniqueKeys : Json → Bool
  | .object members => decide (keys members).Nodup && uniqueKeysOfMembers members
  | _ => true

def uniqueKeysOfMembers : List (String × Json) → Bool
  | [] => true
  | member :: rest => uniqueKeysOfMember member && uniqueKeysOfMembers rest

def uniqueKeysOfMember : String × Json → Bool
  | (_, value) => uniqueKeys value

end

variable {members : List (String × Json)}

theorem uniqueKeysOfMembers_iff :
    uniqueKeysOfMembers members = true ↔ ∀ member ∈ members, uniqueKeys member.2 = true := by
  induction members with
  | nil => simp [uniqueKeysOfMembers]
  | cons member _ ih =>
    obtain ⟨key, value⟩ := member
    simp [uniqueKeysOfMembers, uniqueKeysOfMember, ih]

theorem uniqueKeys_object_iff :
    uniqueKeys (.object members) = true ↔
      (keys members).Nodup ∧ ∀ member ∈ members, uniqueKeys member.2 = true := by
  rw [uniqueKeys, and_eq_true, decide_eq_true_iff, uniqueKeysOfMembers_iff]

theorem nodup_of_uniqueKeys (unique : json.uniqueKeys = true) : (keys json.members).Nodup := by
  cases json with
  | object => exact (uniqueKeys_object_iff.mp unique).1
  | _ => exact nodup_nil

theorem uniqueKeys_of_find (unique : json.uniqueKeys = true) (found : json.find key = some value) :
    value.uniqueKeys = true := by
  cases json with
  | object =>
    obtain ⟨nodup, inside⟩ := uniqueKeys_object_iff.mp unique
    exact inside _ ((AssocList.find_eq_some_iff nodup).mp found)
  | _ => cases found

def UniqueOpt (value : Option Json) : Prop :=
  ∀ json, value = some json → json.uniqueKeys = true

theorem UniqueOpt.bind_find {value : Option Json} (unique : UniqueOpt value) (key : String) :
    UniqueOpt (value.bind (find key)) := by
  intro _ found
  obtain ⟨outer, isOuter, inside⟩ := Option.bind_eq_some_iff.mp found
  exact uniqueKeys_of_find (unique outer isOuter) inside

theorem UniqueOpt.bind_atPath {value : Option Json} (unique : UniqueOpt value)
    (path : List String) : UniqueOpt (value.bind (atPath path)) := by
  induction path generalizing value with
  | nil =>
    rw [bind_atPath_nil]
    exact unique
  | cons key _ ih =>
    rw [bind_atPath_cons]
    exact ih (unique.bind_find key)

theorem uniqueKeys_of_member {member : String × Json} (unique : json.uniqueKeys = true)
    (inside : member ∈ json.members) : member.2.uniqueKeys = true := by
  cases json with
  | object => exact (uniqueKeys_object_iff.mp unique).2 member inside
  | _ => cases inside

end Json

structure JsonObject where
  members : List (String × Json)
  unique : (Json.object members).uniqueKeys = true

namespace JsonObject

def toJson (object : JsonObject) : Json := .object object.members

/-- `folly::dynamic::object`. -/
def empty : JsonObject := ⟨[], rfl⟩

end JsonObject

structure Dynamic where
  json : Json
  unique : json.uniqueKeys = true

namespace Dynamic

/-- `folly::dynamic::object`. -/
def object : Dynamic := ⟨.object [], rfl⟩

/-- `isObject`. -/
def isObject (value : Dynamic) : Bool := value.json.isObject

/-- `find`, or `count` and `at`. -/
def find (key : String) (value : Dynamic) : Option Dynamic :=
  match found : value.json.find key with
  | none => none
  | some json => some ⟨json, Json.uniqueKeys_of_find value.unique found⟩

/-- Setting a key of an object. -/
def insert (target : Dynamic) (key : String) (value : Dynamic) : Dynamic where
  json := .object (upsert .null key (fun _ => value.json) target.json.members)
  unique := by
    have inside : ∀ member ∈ target.json.members, member.2.uniqueKeys = true :=
      fun _ isMember => Json.uniqueKeys_of_member target.unique isMember
    exact Json.uniqueKeys_object_iff.mpr
      ⟨nodup_keys_upsert (Json.nodup_of_uniqueKeys target.unique),
        forall_mem_upsert (fun json : Json => json.uniqueKeys = true) inside
          (fun _ _ => value.unique) value.unique⟩

/-- `items`. -/
def items (value : Dynamic) : List (String × Dynamic) :=
  value.json.members.attach.map fun member =>
    (member.1.1, ⟨member.1.2, Json.uniqueKeys_of_member value.unique member.2⟩)

def toObject? : Dynamic → Option JsonObject
  | ⟨.object members, unique⟩ => some ⟨members, unique⟩
  | _ => none

theorem ext_json {first second : Dynamic} (same : first.json = second.json) : first = second := by
  cases first
  cases second
  cases same
  rfl

theorem map_json_find (key : String) (value : Dynamic) :
    (value.find key).map Dynamic.json = value.json.find key := by
  rw [find]
  split
  · next absent => exact absent.symm
  · next present => exact present.symm

variable {key : String} {value found : Dynamic}

theorem find_eq_some_iff :
    value.find key = some found ↔ value.json.find key = some found.json := by
  rw [← map_json_find, Option.map_eq_some_iff]
  constructor
  · intro isFound
    exact ⟨found, isFound, rfl⟩
  · rintro ⟨_, isFound, same⟩
    rw [isFound, ext_json same]

theorem find_insert (target : Dynamic) (key other : String) (value : Dynamic) :
    (target.insert key value).find other = if key = other then some value else target.find other := by
  apply Option.map_injective fun _ _ => ext_json
  rw [map_json_find, insert, Json.find_object, AssocList.find_upsert, apply_ite (Option.map json),
    map_json_find]
  rfl

theorem mem_items :
    (key, found) ∈ value.items ↔ value.find key = some found := by
  rw [find_eq_some_iff, Json.find,
    AssocList.find_eq_some_iff (Json.nodup_of_uniqueKeys value.unique), items, mem_map]
  constructor
  · rintro ⟨member, _, same⟩
    cases same
    exact member.2
  · intro inside
    exact ⟨⟨(key, found.json), inside⟩, mem_attach _ _, rfl⟩

variable (value : Dynamic)

theorem keys_items : keys value.items = keys value.json.members := by
  have attached : value.json.members.attach.map (fun member => Prod.fst member.1) =
      value.json.members.map Prod.fst := attach_map_val
  rw [items, AssocList.keys, map_map]
  exact attached

theorem nodup_keys_items : (keys value.items).Nodup :=
  keys_items value ▸ Json.nodup_of_uniqueKeys value.unique

theorem find_items (key : String) : AssocList.find key value.items = value.find key := by
  ext found
  rw [AssocList.find_eq_some_iff (nodup_keys_items value), mem_items]

theorem exists_find (nonempty : value.json.members ≠ []) :
    ∃ key found, value.find key = some found := by
  cases members : value.json.members with
  | nil => exact absurd members nonempty
  | cons member =>
    have inside : member ∈ value.json.members := members ▸ mem_cons_self
    refine ⟨member.1, ⟨member.2, Json.uniqueKeys_of_member value.unique inside⟩, ?_⟩
    rw [find_eq_some_iff]
    exact (AssocList.find_eq_some_iff (Json.nodup_of_uniqueKeys value.unique)).mpr inside

theorem find_foldl_insert (update : Option Dynamic → Dynamic → Dynamic)
    {pairs : List (String × Dynamic)} (nodup : (keys pairs).Nodup) (start : Dynamic)
    (key : String) :
    (pairs.foldl (fun target pair =>
        target.insert pair.1 (update (target.find pair.1) pair.2)) start).find key =
      match AssocList.find key pairs with
      | none => start.find key
      | some value => some (update (start.find key) value) := by
  induction pairs generalizing start with
  | nil => rfl
  | cons pair _ ih =>
    obtain ⟨name, _⟩ := pair
    rw [AssocList.keys_cons, nodup_cons] at nodup
    rw [foldl_cons, ih nodup.2, AssocList.find]
    by_cases here : name = key
    · subst here
      rw [find_eq_none_of_notMem nodup.1, if_pos rfl]
      rw [find_insert, if_pos rfl]
    · rw [if_neg here, find_insert, if_neg here]

theorem find_foldl_items (key : String) :
    (value.items.foldl (fun target pair => target.insert pair.1 pair.2) Dynamic.object).find key =
      value.find key := by
  rw [find_foldl_insert (fun _ new => new) (nodup_keys_items value), find_items]
  cases value.find key with
  | none | some found => rfl

end Dynamic

def JsonObject.toDynamic (object : JsonObject) : Dynamic := ⟨object.toJson, object.unique⟩

/-- What is shown where one layer lies over another: only objects absorb what is merged into them.
-/
def stacked : Option (Option Json) → Option (Option Json) → Option (Option Json)
  | lower, none => lower
  | none, upper => upper
  | some none, _ => some none
  | some (some _), upper => upper

@[simp] theorem stacked_none (lower : Option (Option Json)) : stacked lower none = lower := by
  cases lower <;> rfl

@[simp] theorem none_stacked (upper : Option (Option Json)) : stacked none upper = upper := by
  cases upper <;> rfl

@[simp] theorem object_stacked (upper : Option (Option Json)) :
    stacked (some none) upper = some none := by
  cases upper <;> rfl

theorem stacked_assoc (first second third : Option (Option Json)) :
    stacked (stacked first second) third = stacked first (stacked second third) := by
  rcases first with _ | _ | _ <;> rcases second with _ | _ | _ <;> rcases third with _ | _ | _ <;>
    rfl

theorem stacked_self (shown : Option (Option Json)) : stacked shown shown = shown := by
  rcases shown with _ | _ | _ <;> rfl

namespace Json

mutual

/-- `JsonUtils::dynamicObjectMerge`. -/
def dynamicObjectMerge : Json → Json → Json
  | a, .object bMembers =>
    match a with
    | .object aMembers => .object (mergeMembers aMembers bMembers)
    | a => a
  | a, _ => a

/-- The loop of `dynamicObjectMerge` over the members of `b`. -/
def mergeMembers : List (String × Json) → List (String × Json) → List (String × Json)
  | aMembers, [] => aMembers
  | aMembers, bPair :: rest => mergeMembers (mergeMember aMembers bPair) rest

/-- The body of the loop: an object is merged, anything else is replaced. -/
def mergeMember : List (String × Json) → String × Json → List (String × Json)
  | aMembers, (key, value) =>
    upsert .null key
      (fun old => if old.isObject then dynamicObjectMerge old value else value) aMembers

end

def mergeValue (old value : Json) : Json :=
  if old.isObject then dynamicObjectMerge old value else value

/-- What becomes of a key. -/
def mergeOpt : Option Json → Option Json → Option Json
  | old, none => old
  | none, some value => some value
  | some old, some value => some (mergeValue old value)

/-! ### Merging, key by key -/

theorem mergeValue_of_isObject {old : Json} (isObject : old.isObject = true) (value : Json) :
    mergeValue old value = dynamicObjectMerge old value :=
  if_pos isObject

theorem mergeValue_of_not_isObject {old : Json} (notObject : old.isObject = false) (value : Json) :
    mergeValue old value = value :=
  if_neg (Bool.eq_false_iff.mp notObject)

@[simp] theorem mergeOpt_none (old : Option Json) : mergeOpt old none = old := by
  cases old with
  | none | some value => rfl

@[simp] theorem none_mergeOpt (value : Option Json) : mergeOpt none value = value := by
  cases value with
  | none | some value => rfl

theorem exists_mergeOpt_some (below : Option Json) (value : Json) :
    ∃ merged, mergeOpt below (some value) = some merged := by
  cases below with
  | none => exact ⟨value, rfl⟩
  | some => exact ⟨_, rfl⟩

theorem mergeOpt_eq_none_iff {old value : Option Json} :
    mergeOpt old value = none ↔ old = none ∧ value = none := by
  cases old with
  | none => rw [none_mergeOpt, and_iff_right rfl]
  | some =>
    cases value with
    | none | some value => simp [mergeOpt]

theorem merge_object (aMembers bMembers : List (String × Json)) :
    dynamicObjectMerge (.object aMembers) (.object bMembers) =
      .object (mergeMembers aMembers bMembers) := by
  rw [dynamicObjectMerge]

variable {a b : Json}

theorem merge_of_not_isObject (notObject : a.isObject = false ∨ b.isObject = false) :
    dynamicObjectMerge a b = a := by
  cases b with
  | object =>
    rcases notObject with notA | notB
    · cases a with
      | object => cases notA
      | _ => rfl
    · cases notB
  | _ => rfl

@[simp] theorem isObject_merge (a b : Json) : (dynamicObjectMerge a b).isObject = a.isObject := by
  cases isA : a.isObject with
  | false => rw [merge_of_not_isObject (.inl isA), isA]
  | true =>
    cases isB : b.isObject with
    | false => rw [merge_of_not_isObject (.inr isB), isA]
    | true =>
      rw [eq_object_of_isObject isA, eq_object_of_isObject isB]
      rfl

theorem leaf_merge (a b : Json) : (dynamicObjectMerge a b).leaf = a.leaf := by
  cases isA : a.isObject with
  | false => rw [merge_of_not_isObject (.inl isA)]
  | true =>
    have isMerged : (dynamicObjectMerge a b).isObject = true := (isObject_merge a b).trans isA
    rw [leaf_of_isObject isA, leaf_of_isObject isMerged]

theorem find_mergeMembers {bMembers : List (String × Json)}
    (nodup : (keys bMembers).Nodup) (aMembers : List (String × Json)) (key : String) :
    AssocList.find key (mergeMembers aMembers bMembers) =
      mergeOpt (AssocList.find key aMembers) (AssocList.find key bMembers) := by
  induction bMembers generalizing aMembers with
  | nil =>
    exact (mergeOpt_none _).symm
  | cons bPair _ ih =>
    obtain ⟨bKey, _⟩ := bPair
    obtain ⟨fresh, nodup⟩ := List.nodup_cons.mp nodup
    rw [mergeMembers, ih nodup, mergeMember, AssocList.find_upsert]
    by_cases here : bKey = key
    · subst here
      rw [if_pos rfl, find_eq_none_of_notMem fresh, AssocList.find, if_pos rfl]
      cases AssocList.find bKey aMembers with
      | none | some old => rfl
    · rw [if_neg here]
      conv_rhs => rw [AssocList.find, if_neg here]

theorem find_merge_of_nodup (isObject : a.isObject = true)
    (nodup : (keys b.members).Nodup) (key : String) :
    (dynamicObjectMerge a b).find key = mergeOpt (a.find key) (b.find key) := by
  cases isB : b.isObject with
  | false =>
    rw [merge_of_not_isObject (.inr isB), find_of_not_isObject isB, mergeOpt_none]
  | true =>
    rw [eq_object_of_isObject isObject, eq_object_of_isObject isB]
    exact find_mergeMembers nodup a.members key

theorem find_merge (isObject : a.isObject = true) (unique : b.uniqueKeys = true)
    (key : String) : (dynamicObjectMerge a b).find key = mergeOpt (a.find key) (b.find key) :=
  find_merge_of_nodup isObject (nodup_of_uniqueKeys unique) key

/-! ### Distinct keys stay distinct -/

theorem nodup_keys_mergeMembers {aMembers : List (String × Json)}
    (nodup : (keys aMembers).Nodup) (bMembers : List (String × Json)) :
    (keys (mergeMembers aMembers bMembers)).Nodup := by
  induction bMembers generalizing aMembers with
  | nil =>
    exact nodup
  | cons bPair _ ih =>
    apply ih
    obtain ⟨bKey, value⟩ := bPair
    exact nodup_keys_upsert nodup

theorem nodup_keys_merge {a : Json} (nodup : (keys a.members).Nodup) (b : Json) :
    (keys (dynamicObjectMerge a b).members).Nodup := by
  by_cases objects : a.isObject = true ∧ b.isObject = true
  · rw [eq_object_of_isObject objects.1, eq_object_of_isObject objects.2]
    exact nodup_keys_mergeMembers nodup _
  · rw [merge_of_not_isObject (by simpa [imp_iff_not_or] using objects)]
    exact nodup

mutual

theorem uniqueKeys_merge : ∀ {a : Json} (b : Json), a.uniqueKeys = true → b.uniqueKeys = true →
    (dynamicObjectMerge a b).uniqueKeys = true
  | a, .object bMembers, uniqueA, uniqueB => by
    cases isA : a.isObject with
    | false =>
      rw [merge_of_not_isObject (.inl isA)]
      exact uniqueA
    | true =>
      rw [eq_object_of_isObject isA] at uniqueA ⊢
      obtain ⟨nodupA, insideA⟩ := uniqueKeys_object_iff.mp uniqueA
      obtain ⟨_, insideB⟩ := uniqueKeys_object_iff.mp uniqueB
      rw [merge_object]
      exact uniqueKeys_object_iff.mpr ⟨nodup_keys_mergeMembers nodupA bMembers,
          uniqueKeys_mergeMembers bMembers insideA insideB⟩
  | _, .null, uniqueA, _ => uniqueA
  | _, .bool _, uniqueA, _ => uniqueA
  | _, .int _, uniqueA, _ => uniqueA
  | _, .double _, uniqueA, _ => uniqueA
  | _, .string _, uniqueA, _ => uniqueA
  | _, .array _, uniqueA, _ => uniqueA

theorem uniqueKeys_mergeMembers : ∀ {aMembers : List (String × Json)}
    (bMembers : List (String × Json)), (∀ member ∈ aMembers, member.2.uniqueKeys = true) →
    (∀ member ∈ bMembers, member.2.uniqueKeys = true) →
    ∀ member ∈ mergeMembers aMembers bMembers, member.2.uniqueKeys = true
  | aMembers, [], insideA, _ => by
    rw [mergeMembers]
    exact insideA
  | aMembers, bPair :: rest, insideA, insideB => by
    rw [mergeMembers]
    exact uniqueKeys_mergeMembers rest
      (uniqueKeys_mergeMember bPair insideA (insideB _ List.mem_cons_self))
      (fun member inRest => insideB member (List.mem_cons_of_mem _ inRest))

theorem uniqueKeys_mergeMember : ∀ {aMembers : List (String × Json)} (bPair : String × Json),
    (∀ member ∈ aMembers, member.2.uniqueKeys = true) → bPair.2.uniqueKeys = true →
    ∀ member ∈ mergeMember aMembers bPair, member.2.uniqueKeys = true
  | aMembers, (key, value), insideA, uniqueValue => by
    rw [mergeMember]
    refine forall_mem_upsert (fun value : Json => value.uniqueKeys = true) insideA ?_ ?_
    · intro _ uniqueOld
      split
      · exact uniqueKeys_merge value uniqueOld uniqueValue
      · exact uniqueValue
    · exact uniqueValue

end

/-! ### What is shown at a path -/

def peekOpt (path : List String) (value : Option Json) : Option (Option Json) :=
  value.bind (peek path)

variable {lower upper : Option Json}

theorem bind_find_mergeOpt {key : String}
    (nodup : ∀ json, upper = some json → (keys json.members).Nodup) :
    (mergeOpt lower upper).bind (find key) =
      mergeOpt (lower.bind (find key)) (upper.bind (find key)) := by
  cases upper with
  | none => simp
  | some above =>
    cases lower with
    | none => simp
    | some below =>
      show (mergeValue below above).find key = mergeOpt (below.find key) (above.find key)
      cases isObject : below.isObject with
      | true => rw [mergeValue_of_isObject isObject, find_merge_of_nodup isObject (nodup _ rfl)]
      | false =>
        rw [mergeValue_of_not_isObject isObject, find_of_not_isObject isObject, none_mergeOpt]

theorem atPath_mergeOpt (path : List String)
    (unique : UniqueOpt upper) : (mergeOpt lower upper).bind (atPath path) =
      mergeOpt (lower.bind (atPath path)) (upper.bind (atPath path)) := by
  induction path generalizing lower upper with
  | nil => rw [bind_atPath_nil, bind_atPath_nil, bind_atPath_nil]
  | cons key _ ih =>
    rw [bind_atPath_cons, bind_atPath_cons, bind_atPath_cons,
      bind_find_mergeOpt fun json isUpper => nodup_of_uniqueKeys (unique json isUpper)]
    exact ih (unique.bind_find key)

theorem atPath_merge {below above : Json} (isObject : below.isObject = true)
    (unique : above.uniqueKeys = true) (path : List String) :
    (dynamicObjectMerge below above).atPath path =
      mergeOpt (below.atPath path) (above.atPath path) := by
  have merged : (mergeOpt (some below) (some above)).bind (atPath path) = _ :=
    atPath_mergeOpt path fun _ same => Option.some.inj same ▸ unique
  rw [mergeOpt, mergeValue_of_isObject isObject] at merged
  exact merged

theorem leaf_mergeOpt (lower upper : Option Json) :
    (mergeOpt lower upper).map leaf = stacked (lower.map leaf) (upper.map leaf) := by
  cases upper with
  | none => simp
  | some above =>
    cases lower with
    | none => simp
    | some below =>
      show some (mergeValue below above).leaf = stacked (some below.leaf) (some above.leaf)
      cases isObject : below.isObject with
      | true =>
        rw [mergeValue_of_isObject isObject, leaf_merge, leaf_of_isObject isObject, object_stacked]
      | false =>
        rw [mergeValue_of_not_isObject isObject, leaf_of_not_isObject isObject]
        rfl

theorem peek_merge {below above : Json} (isObject : below.isObject = true)
    (unique : above.uniqueKeys = true) (path : List String) :
    (dynamicObjectMerge below above).peek path = stacked (below.peek path) (above.peek path) := by
  rw [peek, atPath_merge isObject unique, leaf_mergeOpt]
  rfl

/-! ### The order of members does not matter -/

def SameOpt (first second : Option Json) : Prop :=
  ∀ path, peekOpt path first = peekOpt path second

theorem Same.find (same : Same first second) (key : String) :
    SameOpt (first.find key) (second.find key) := by
  intro path
  have shown := same (key :: path)
  rw [peek_cons, peek_cons] at shown
  exact shown

theorem SameOpt.cases {first second : Option Json} (same : SameOpt first second) :
    (first = none ∧ second = none) ∨
      ∃ one two, first = some one ∧ second = some two ∧ Same one two := by
  cases first with
  | none =>
    cases second with
    | none => exact .inl ⟨rfl, rfl⟩
    | some => cases same []
  | some one =>
    cases second with
    | none => cases same []
    | some two => exact .inr ⟨one, two, rfl, rfl, same⟩

theorem Same.merge {a a' b b' : Json} (sameA : Same a a') (sameB : Same b b')
    (unique : b.uniqueKeys = true) (unique' : b'.uniqueKeys = true) :
    Same (dynamicObjectMerge a b) (dynamicObjectMerge a' b') := by
  intro path
  cases isA : a.isObject with
  | false =>
    rw [merge_of_not_isObject (.inl isA),
      merge_of_not_isObject (.inl (sameA.isObject_eq ▸ isA))]
    exact sameA _
  | true =>
    rw [peek_merge isA unique, peek_merge (sameA.isObject_eq ▸ isA) unique', sameA, sameB]

/-- Merging is associative.  In the middle may only stand an object: any other value is absorbed by
`a` but keeps `c` out if the two are merged first. -/
theorem merge_assoc {a b c : Json} (isObject : b.isObject = true) (uniqueB : b.uniqueKeys = true)
    (uniqueC : c.uniqueKeys = true) :
    Same (dynamicObjectMerge (dynamicObjectMerge a b) c)
      (dynamicObjectMerge a (dynamicObjectMerge b c)) := by
  intro path
  cases isA : a.isObject with
  | false =>
    rw [merge_of_not_isObject (.inl isA), merge_of_not_isObject (.inl isA),
      merge_of_not_isObject (.inl isA)]
  | true =>
    rw [peek_merge ((isObject_merge a b).trans isA) uniqueC, peek_merge isA uniqueB,
      peek_merge isA (uniqueKeys_merge c uniqueB uniqueC), peek_merge isObject uniqueC,
      stacked_assoc]

/-! ### Identity and idempotence -/

@[simp] theorem merge_empty (a : Json) : dynamicObjectMerge a (.object []) = a := by
  cases a with
  | object => rw [merge_object, mergeMembers]
  | _ => rfl

theorem empty_merge {b : Json} (isObject : b.isObject = true) (unique : b.uniqueKeys = true) :
    Same (dynamicObjectMerge (.object []) b) b := by
  apply Same.of_find
  · rw [leaf_merge, leaf_of_isObject isObject]
    rfl
  · intro key path
    rw [find_merge rfl unique, find_object, AssocList.find, none_mergeOpt]

theorem merge_self {a : Json} (unique : a.uniqueKeys = true) : Same (dynamicObjectMerge a a) a := by
  intro path
  cases isA : a.isObject with
  | false => rw [merge_of_not_isObject (.inl isA)]
  | true => rw [peek_merge isA unique, stacked_self]

end Json

/-- `JsonUtils::dynamicObjectMerge`. -/
def Dynamic.merge (a b : Dynamic) : Dynamic :=
  ⟨Json.dynamicObjectMerge a.json b.json, Json.uniqueKeys_merge b.json a.unique b.unique⟩

namespace JsonObject

/-- `JsonUtils::dynamicObjectMerge` of two objects. -/
def merge (a b : JsonObject) : JsonObject where
  members := Json.mergeMembers a.members b.members
  unique := by
    rw [← Json.merge_object]
    exact Json.uniqueKeys_merge _ a.unique b.unique

/-- Objects are merged as the values that they are. -/
theorem toDynamic_merge (a b : JsonObject) :
    (merge a b).toDynamic = a.toDynamic.merge b.toDynamic := by
  unfold toDynamic Dynamic.merge toJson
  simp only [Json.merge_object]
  rfl

end JsonObject

end Terragraph
