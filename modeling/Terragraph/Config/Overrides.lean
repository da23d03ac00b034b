/-
Module: Terragraph.Config.Overrides
Purpose: `JsonUtils::dynamicObjectDifference`, the lookup of a reported key in it, what it means for
  a merge, what a full difference reports, and how `ConfigHelper` validates, merges and stores
  requests that set overrides.
Trusted boundary: human-reviewed embedding of `JsonUtils.cpp`, of `operator==` of `folly::dynamic`,
  of `folly::json_pointer` and of `ConfigHelper.cpp`; an integer and a double are compared as
  numbers; writing a file and reading it again is a parameter; the cached node config states and the
  backups of files are not modelled
Main exports: difference_laws, fullDifference_reported_iff, validateNewNetworkOverrides_ok
-/
import Terragraph.Config.NodeConfig
import Terragraph.Lib.Guarded

namespace Terragraph

section Differences

open List

namespace Json

/-! ### Equality -/

mutual

/-- `operator==` of `folly::dynamic`. -/
def equal : Json → Json → Bool
  | .null, other => match other with
      | .null => true
      | _ => false
  | .bool value, other => match other with
      | .bool value' => value == value'
      | _ => false
  | .int value, other => match other with
      | .int value' => value == value'
      | .double value' => (value : Rat) == value'
      | _ => false
  | .double value, other => match other with
      | .int value' => value == (value' : Rat)
      | .double value' => value == value'
      | _ => false
  | .string value, other => match other with
      | .string value' => value == value'
      | _ => false
  | .array items, other => match other with
      | .array items' => equalItems items items'
      | _ => false
  | .object members, other => match other with
      | .object members' => members.length == members'.length && equalMembers members members'
      | _ => false
  termination_by structural json => json

/-- The items of two arrays are equal. -/
def equalItems : List Json → List Json → Bool
  | [], items => items.isEmpty
  | item :: rest, items => match items with
      | [] => false
      | item' :: rest' => equal item item' && equalItems rest rest'

def equalMembers : List (String × Json) → List (String × Json) → Bool
  | [], _ => true
  | member :: rest, members => equalMember member members && equalMembers rest members

/-- A member has an equal one in another object. -/
def equalMember : String × Json → List (String × Json) → Bool
  | (key, value), members => match AssocList.find key members with
      | none => false
      | some value' => equal value value'

end

theorem equal_of_isObject_ne {first second : Json} (notObject : first.isObject = false)
    (isObject : second.isObject = true) : first.equal second = false := by
  rw [eq_object_of_isObject isObject]
  cases first with
  | object => cases notObject
  | _ => rfl

/-! ### Differences -/

mutual

/-- `JsonUtils::dynamicObjectDifference`. -/
def dynamicObjectDifference : Json → Json → Json
  | a, .object bMembers =>
    if a.isObject then .object (differenceMembers a bMembers []) else .object []
  | _, _ => .object []

/-- The loop over the members of `b`. -/
def differenceMembers : Json → List (String × Json) → List (String × Json) → List (String × Json)
  | _, [], result => result
  | a, bPair :: rest, result => differenceMembers a rest (differenceMember a bPair result)

/-- The body of the loop: what is new or different goes into the result. -/
def differenceMember : Json → String × Json → List (String × Json) → List (String × Json)
  | a, (key, value), result =>
    match a.find key with
    | none => AssocList.upsert .null key (fun _ => value) result
    | some aValue =>
      if aValue.isObject then
        let obj := dynamicObjectDifference aValue value
        if obj.members.isEmpty then result else AssocList.upsert .null key (fun _ => obj) result
      else if aValue.equal value then result
      else AssocList.upsert .null key (fun _ => value) result

end

/-- What becomes of a key of `b`. -/
def differenceValue (aValue : Option Json) (value : Json) : Option Json :=
  match aValue with
  | none => some value
  | some aValue =>
    if aValue.isObject then
      let obj := dynamicObjectDifference aValue value
      if obj.members.isEmpty then none else some obj
    else if aValue.equal value then none
    else some value

theorem differenceMember_eq (a : Json) (key : String) (value : Json)
    (result : List (String × Json)) :
    differenceMember a (key, value) result = match differenceValue (a.find key) value with
      | none => result
      | some changed => AssocList.upsert .null key (fun _ => changed) result := by
  rw [differenceMember]
  cases a.find key with
  | none => rfl
  | some =>
    rw [differenceValue]
    simp only
    split
    · split
      · rfl
      · rfl
    · split
      · rfl
      · rfl

theorem find_differenceMember (a : Json) (key other : String) (value : Json)
    (result : List (String × Json)) :
    AssocList.find other (differenceMember a (key, value) result) =
      if key = other then (differenceValue (a.find other) value).or (AssocList.find other result)
      else AssocList.find other result := by
  rw [differenceMember_eq]
  by_cases here : key = other
  · rw [if_pos here, here]
    cases differenceValue (a.find other) value with
    | none => rfl
    | some => exact (AssocList.find_upsert _ _ _ _ _).trans (if_pos rfl)
  · rw [if_neg here]
    cases differenceValue (a.find key) value with
    | none => rfl
    | some => exact (AssocList.find_upsert _ _ _ _ _).trans (if_neg here)

theorem find_differenceMembers (a : Json) {bMembers : List (String × Json)}
    (nodup : (AssocList.keys bMembers).Nodup) (key : String) (result : List (String × Json)) :
    AssocList.find key (differenceMembers a bMembers result) =
      ((AssocList.find key bMembers).bind (differenceValue (a.find key))).or
        (AssocList.find key result) := by
  induction bMembers generalizing result with
  | nil =>
    rw [differenceMembers]
    rfl
  | cons bPair _ ih =>
    obtain ⟨bKey, _⟩ := bPair
    rw [AssocList.keys_cons, nodup_cons] at nodup
    rw [differenceMembers, ih nodup.2, find_differenceMember, AssocList.find]
    by_cases here : bKey = key
    · subst here
      rw [if_pos rfl, if_pos rfl, AssocList.find_eq_none_of_notMem nodup.1]
      rfl
    · rw [if_neg here, if_neg here]

theorem find_difference {a b : Json} (isObject : a.isObject = true)
    (nodup : (AssocList.keys b.members).Nodup) (key : String) :
    (dynamicObjectDifference a b).find key = (b.find key).bind (differenceValue (a.find key)) := by
  cases b with
  | object =>
    rw [dynamicObjectDifference, if_pos isObject]
    exact (find_differenceMembers a nodup key []).trans Option.or_none
  | _ =>
    rw [dynamicObjectDifference]
    · rfl
    · exact nofun

variable {path : List String} {old value : Option Json}

theorem bind_find_differenceValue (unique : UniqueOpt value)
    (key : String) : (value.bind (differenceValue old)).bind (find key) =
      (value.bind (find key)).bind (differenceValue (old.bind (find key))) := by
  cases value with
  | none => rfl
  | some new =>
    cases old with
    | none => exact (Option.bind_fun_some _).symm
    | some old =>
      show (differenceValue (some old) new).bind (find key) =
        (new.find key).bind (differenceValue (old.find key))
      cases isOld : old.isObject with
      | true =>
        rw [← find_difference isOld (nodup_of_uniqueKeys (unique new rfl)), differenceValue, isOld]
        simp only [if_true]
        split
        · next empty =>
          rw [find, isEmpty_iff.mp empty]
          rfl
        · rfl
      | false =>
        rw [find_of_not_isObject isOld, differenceValue, isOld]
        cases isNew : new.isObject with
        | true =>
          rw [equal_of_isObject_ne isOld isNew]
          exact (Option.bind_fun_some _).symm
        | false =>
          rw [find_of_not_isObject isNew]
          cases old.equal new with
          | true => rfl
          | false => exact find_of_not_isObject isNew key

theorem atPath_differenceValue (path : List String)
    (unique : UniqueOpt value) : (value.bind (differenceValue old)).bind (atPath path) =
      (value.bind (atPath path)).bind (differenceValue (old.bind (atPath path))) := by
  induction path generalizing old value with
  | nil => rw [bind_atPath_nil, bind_atPath_nil, bind_atPath_nil]
  | cons key _ ih =>
    rw [bind_atPath_cons, bind_atPath_cons, bind_atPath_cons, bind_find_differenceValue unique]
    exact ih (unique.bind_find key)

/-- A value of the request that is new, or replaces one that is no object, is in the difference. -/
theorem atPath_difference {a b value : Json} (nonempty : path ≠ []) (isObject : a.isObject = true)
    (unique : b.uniqueKeys = true) (requested : b.atPath path = some value)
    (changed : ∀ old, a.atPath path = some old → old.isObject = false ∧ old.equal value = false) :
    ∃ shown, (dynamicObjectDifference a b).atPath path = some shown := by
  cases path with
  | nil => exact absurd rfl nonempty
  | cons key rest =>
    rw [atPath_cons] at requested changed
    rw [atPath_cons, find_difference isObject (nodup_of_uniqueKeys unique),
      atPath_differenceValue rest fun _ found => uniqueKeys_of_find unique found, requested]
    cases stored : (a.find key).bind (atPath rest) with
    | none => exact ⟨value, rfl⟩
    | some old =>
      obtain ⟨notObject, different⟩ := changed old stored
      exact ⟨value, by simp [differenceValue, notObject, different]⟩

/-! ### Pointers -/

/-- `folly::json_pointer::unescape`, which fails on an escape sequence that does not exist. -/
def jsonPointerUnescape : List Char → Option (List Char)
  | [] => some []
  | '~' :: '0' :: rest => (jsonPointerUnescape rest).map ('~' :: ·)
  | '~' :: '1' :: rest => (jsonPointerUnescape rest).map ('/' :: ·)
  | '~' :: _ => none
  | c :: rest => (jsonPointerUnescape rest).map (c :: ·)

/-- `folly::json_pointer::parse`. -/
def pointerTokens (jsonPtr : String) : Option (List String) :=
  match jsonPtr.toList with
  | [] => some []
  | '/' :: rest =>
    (rest.splitOn '/').mapM fun token => (jsonPointerUnescape token).map String.ofList
  | _ => none

/-- The position in an array that a token stands for: a number without leading zeros. -/
def arrayIndex (token : String) : Option Nat :=
  let digits := token.toList
  if digits.isEmpty || !digits.all Char.isDigit || (digits.length > 1 && digits.head? = some '0') then
    none
  else some (digits.foldl (fun number digit => 10 * number + (digit.toNat - '0'.toNat)) 0)

/-- `get_ptr`; a pointer that does not match the value's shape is as one to a missing element. -/
def getPtr : List String → Json → Option Json
  | [], json => some json
  | token :: rest, .object members => (AssocList.find token members).bind (getPtr rest)
  | token :: rest, .array items =>
    ((arrayIndex token).bind fun index => items[index]?).bind (getPtr rest)
  | _ :: _, _ => none

/-- `JsonUtils::objectContains`. -/
def objectContains (obj : Json) (jsonPtr : String) : Bool :=
  ((pointerTokens jsonPtr).bind fun tokens => getPtr tokens obj).isSome

theorem getPtr_of_atPath {json value : Json} (reached : json.atPath path = some value) :
    getPtr path json = some value := by
  induction path generalizing json with
  | nil => exact reached
  | cons _ _ ih =>
    rw [atPath_cons, Option.bind_eq_some_iff] at reached
    obtain ⟨_, found, reached⟩ := reached
    have isObject := isObject_of_find found
    rw [eq_object_of_isObject isObject, find_object] at found
    rw [eq_object_of_isObject isObject, getPtr, found]
    exact ih reached

/-! ### From a path to its pointer and back -/

open ConfigMetadata

theorem jsonPointerUnescape_cons {c : Char} (plain : c ≠ '~') (rest : List Char) :
    jsonPointerUnescape (c :: rest) = (jsonPointerUnescape rest).map (c :: ·) := by
  simp [jsonPointerUnescape, plain]

theorem unescape_escape (key : List Char) :
    jsonPointerUnescape (jsonPointerEscape key) = some key := by
  induction key with
  | nil => rfl
  | cons c _ ih =>
    rw [jsonPointerEscape] at ih ⊢
    rw [flatMap_cons]
    by_cases tilde : c = '~'
    · subst tilde
      exact congrArg (Option.map ('~' :: ·)) ih
    · by_cases slash : c = '/'
      · subst slash
        exact congrArg (Option.map ('/' :: ·)) ih
      · rw [if_neg tilde, if_neg slash, singleton_append, jsonPointerUnescape_cons tilde, ih]
        rfl

theorem notMem_jsonPointerEscape (key : List Char) : '/' ∉ jsonPointerEscape key := by
  rw [jsonPointerEscape, mem_flatMap]
  rintro ⟨c, _, inside⟩
  split at inside
  · simp at inside
  · split at inside
    · simp at inside
    · next slash =>
      rw [mem_singleton] at inside
      exact slash inside.symm

theorem map_jsonPointerEscape {key : List Char} (noDots : '.' ∉ key) :
    (jsonPointerEscape key).map (fun c => if c = '.' then '/' else c) = jsonPointerEscape key := by
  rw [jsonPointerEscape, map_flatMap]
  apply flatMap_congr
  intro c member
  have notDot : c ≠ '.' := fun dot => noDots (dot ▸ member)
  split
  · rfl
  · split
    · rfl
    · rw [map_singleton, if_neg notDot]

theorem map_jsonPointerEscape_intercalate {keys : List (List Char)}
    (noDots : ∀ key ∈ keys, '.' ∉ key) :
    (jsonPointerEscape (intercalate ['.'] keys)).map (fun c => if c = '.' then '/' else c) =
      intercalate ['/'] (keys.map jsonPointerEscape) := by
  induction keys with
  | nil => rfl
  | cons _ rest ih =>
    obtain ⟨here, later⟩ := forall_mem_cons.mp noDots
    cases rest with
    | nil =>
      rw [map_singleton, intercalate_singleton, intercalate_singleton]
      exact map_jsonPointerEscape here
    | cons _ rest =>
      have rest := ih later
      rw [map_cons] at rest
      rw [map_cons, map_cons, intercalate_cons_cons, intercalate_cons_cons,
        ← rest, ← map_jsonPointerEscape here]
      simp only [jsonPointerEscape, flatMap_append, map_append]
      rfl

theorem toList_toJsonPointer (noDots : ∀ key ∈ path, '.' ∉ key.toList) :
    (toJsonPointer (toFullKey path)).toList =
      '/' :: intercalate ['/'] ((path.map String.toList).map jsonPointerEscape) := by
  have noDotsInside : ∀ key ∈ path.map String.toList, '.' ∉ key := by
    intro _ member
    obtain ⟨text, isText, rfl⟩ := mem_map.mp member
    exact noDots text isText
  rw [toJsonPointer, String.toList_ofList, map_cons, toFullKey, String.toList_intercalate,
    ← map_jsonPointerEscape_intercalate noDotsInside]
  rfl

theorem mapM_unescape (path : List String) : ((path.map String.toList).map jsonPointerEscape).mapM
      (fun token => (jsonPointerUnescape token).map String.ofList) = some path := by
  induction path with
  | nil => rfl
  | cons key rest ih =>
    rw [map_cons, map_cons, mapM_cons, unescape_escape, ih]
    show some (String.ofList key.toList :: rest) = some (key :: rest)
    rw [String.ofList_toList]

theorem pointerTokens_toJsonPointer (nonempty : path ≠ []) (noDots : ∀ key ∈ path, '.' ∉ key.toList) :
    pointerTokens (toJsonPointer (toFullKey path)) = some path := by
  rw [pointerTokens, toList_toJsonPointer noDots]
  simp only
  rw [splitOn_intercalate]
  · exact mapM_unescape path
  · intro _ member
    obtain ⟨key, _, rfl⟩ := mem_map.mp member
    exact notMem_jsonPointerEscape key
  · intro empty
    rw [map_eq_nil_iff, map_eq_nil_iff] at empty
    exact nonempty empty

/-- `JsonUtils::replace`, for a text of two characters and its replacement by one. -/
def JsonUtils.replace (first second replacement : Char) : List Char → List Char
  | c :: d :: rest =>
    if c = first ∧ d = second then replacement :: replace first second replacement rest
    else c :: replace first second replacement (d :: rest)
  | s => s

/-- `JsonUtils::jsonPointerUnescape`. -/
def JsonUtils.jsonPointerUnescape (s : List Char) : List Char :=
  replace '~' '0' '~' (replace '~' '1' '/' s)

theorem JsonUtils.replace_cons {first second replacement c : Char} (other : c ≠ first)
    (rest : List Char) :
    replace first second replacement (c :: rest) = c :: replace first second replacement rest := by
  cases rest with
  | nil => rfl
  | cons => rw [replace, if_neg (other ·.1)]

/-- The slashes come back first, and then the tildes. -/
theorem JsonUtils.unescape_escape (s : List Char) :
    jsonPointerUnescape (jsonPointerEscape s) = s := by
  rw [jsonPointerUnescape]
  induction s with
  | nil => rfl
  | cons c rest ih =>
    rw [jsonPointerEscape, flatMap_cons, ← jsonPointerEscape]
    by_cases tilde : c = '~'
    · subst tilde
      have kept (s) : replace '~' '1' '/' ('~' :: '0' :: s) = '~' :: '0' :: replace '~' '1' '/' s := by
        rw [replace, if_neg (by decide), replace_cons (by decide)]
      change replace _ _ _ (replace _ _ _ ('~' :: '0' :: jsonPointerEscape rest)) = _
      rw [kept, replace, if_pos ⟨rfl, rfl⟩, ih]
    · by_cases slash : c = '/'
      · subst slash
        change replace _ _ _ (replace _ _ _ ('~' :: '1' :: jsonPointerEscape rest)) = _
        rw [replace, if_pos ⟨rfl, rfl⟩, replace_cons (by decide), ih]
      · rw [if_neg tilde, if_neg slash, singleton_append, replace_cons tilde, replace_cons tilde, ih]

/-- Keys come back from their escaped form and from the pointer to their full key. -/
theorem key_encoding_round_trip :
    (∀ s, JsonUtils.jsonPointerUnescape (jsonPointerEscape s) = s) ∧
      ∀ keys : List String, keys ≠ [] → (∀ key ∈ keys, '.' ∉ key.toList) →
        pointerTokens (toJsonPointer (toFullKey keys)) = some keys :=
  ⟨JsonUtils.unescape_escape, fun _ => pointerTokens_toJsonPointer⟩

/-- Keys with the characters that a pointer escapes. -/
theorem key_encoding_round_trip_of_slash :
    pointerTokens (toJsonPointer (toFullKey ["a/b", "~1"])) = some ["a/b", "~1"] :=
  key_encoding_round_trip.2 _ (by decide) (by decide)

theorem objectContains_of_atPath {json value : Json} (nonempty : path ≠ [])
    (noDots : ∀ key ∈ path, '.' ∉ key.toList) (reached : json.atPath path = some value) :
    objectContains json (toJsonPointer (toFullKey path)) = true := by
  rw [objectContains, pointerTokens_toJsonPointer nonempty noDots]
  show (getPtr path json).isSome = true
  rw [getPtr_of_atPath reached]
  rfl

open AssocList

/-- `JsonUtils::dynamicObjectFullDifference`. -/
def dynamicObjectFullDifference (a b : Json) : Json :=
  let aDiff := dynamicObjectDifference a b
  let bDiff := dynamicObjectDifference b a
  dynamicObjectMerge aDiff bDiff

def items : Json → List Json
  | .array items => items
  | _ => []

/-- No object has a key twice, within arrays either. -/
inductive Proper : Json → Prop
  | intro {json : Json} (nodup : (keys json.members).Nodup)
      (inside : ∀ member ∈ json.members, Proper member.2)
      (within : ∀ item ∈ json.items, Proper item) : Proper json

/-! ### Equality, key by key -/

variable {a b : Json}

theorem equalItems_iff {items items' : List Json} : equalItems items items' = true ↔
    Forall₂ (fun item item' => item.equal item' = true) items items' := by
  induction items generalizing items' with
  | nil => simp [equalItems]
  | cons _ _ ih =>
    cases items' with
    | nil => simp [equalItems]
    | cons => simp [equalItems, ih]

theorem equalMembers_iff {members members' : List (String × Json)} :
    equalMembers members members' = true ↔ ∀ member ∈ members,
      ∃ value, AssocList.find member.1 members' = some value ∧ member.2.equal value = true := by
  induction members with
  | nil => simp [equalMembers]
  | cons member _ ih =>
    obtain ⟨key, _⟩ := member
    rw [equalMembers, Bool.and_eq_true, ih, forall_mem_cons, equalMember]
    cases AssocList.find key members' with
    | none => simp
    | some => simp

def EqualAt (first second : Option Json) : Prop :=
  (first = none ∧ second = none) ∨
    ∃ one two, first = some one ∧ second = some two ∧ one.equal two = true

theorem EqualAt.refl {value : Option Json}
    (equal : ∀ json, value = some json → json.equal json = true) : EqualAt value value := by
  cases value with
  | none => exact .inl ⟨rfl, rfl⟩
  | some json => exact .inr ⟨json, json, rfl, rfl, equal json rfl⟩

/-- Equal objects have the same keys, so that no key of the second one is repeated either. -/
theorem finds_of_equal (isA : a.isObject = true) (nodup : (keys a.members).Nodup)
    (equal : a.equal b = true) : b.isObject = true ∧ (keys b.members).Nodup ∧
      ∀ key, EqualAt (a.find key) (b.find key) := by
  rw [eq_object_of_isObject isA] at equal
  cases b with
  | object members' =>
    rw [Json.equal, Bool.and_eq_true, equalMembers_iff, beq_iff_eq] at equal
    obtain ⟨length, inside⟩ := equal
    have subset : keys a.members ⊆ keys members' := by
      intro _ isKey
      obtain ⟨member, isMember, rfl⟩ := mem_map.mp isKey
      obtain ⟨_, found, _⟩ := inside member isMember
      exact find_ne_none_iff.mp (by simp [found])
    have same : (keys a.members).Perm (keys members') :=
      (subperm_of_subset nodup subset).perm_of_length_le (by simp [length])
    refine ⟨rfl, same.nodup_iff.mp nodup, fun key => ?_⟩
    cases found : a.find key with
    | none =>
      refine .inl ⟨rfl, find_eq_none_of_notMem fun known => ?_⟩
      exact find_ne_none_iff.mpr (same.mem_iff.mpr known) found
    | some value =>
      obtain ⟨value', found', equal⟩ := inside _ (mem_of_find found)
      exact .inr ⟨value, value', rfl, found', equal⟩
  | _ => cases equal

theorem equal_of_finds (isA : a.isObject = true) (isB : b.isObject = true)
    (nodup : (keys a.members).Nodup) (nodup' : (keys b.members).Nodup)
    (finds : ∀ key, EqualAt (a.find key) (b.find key)) : a.equal b = true := by
  have same : (keys a.members).Perm (keys b.members) := by
    rw [perm_ext_iff_of_nodup nodup nodup']
    intro key
    rw [← find_ne_none_iff, ← find_ne_none_iff]
    rcases finds key with ⟨absent, absent'⟩ | ⟨_, _, found, found', _⟩
    · exact iff_of_false (· absent) (· absent')
    · exact iff_of_true (ne_of_eq_of_ne found (Option.some_ne_none _))
        (ne_of_eq_of_ne found' (Option.some_ne_none _))
  rw [eq_object_of_isObject isA, eq_object_of_isObject isB, equal, Bool.and_eq_true,
    equalMembers_iff, beq_iff_eq]
  refine ⟨by simpa [AssocList.keys] using same.length_eq, fun member isMember => ?_⟩
  have known : a.find member.1 = some member.2 := (find_eq_some_iff nodup).mpr isMember
  rcases finds member.1 with ⟨absent, _⟩ | ⟨_, value', found, found', equal⟩
  · cases absent.symm.trans known
  · cases found.symm.trans known
    exact ⟨value', found', equal⟩

theorem Proper.equal_refl (proper : Proper a) : a.equal a = true := by
  induction proper with
  | @intro json nodup _ _ inside within =>
    cases json with
    | object =>
      exact equal_of_finds rfl rfl nodup nodup fun _ =>
        .refl fun _ found => inside _ (mem_of_find found)
    | array => exact equalItems_iff.mpr (forall₂_same.mpr within)
    | _ => simp [equal]

theorem Proper.equal_symm (proper : Proper a) (equal : a.equal b = true) : b.equal a = true := by
  induction proper generalizing b with
  | @intro json nodup _ _ inside within =>
    cases json with
    | object =>
      obtain ⟨isB, nodup', finds⟩ := finds_of_equal rfl nodup equal
      refine equal_of_finds isB rfl nodup' nodup fun key => ?_
      rcases finds key with ⟨absent, absent'⟩ | ⟨value, value', found, found', same⟩
      · exact .inl ⟨absent', absent⟩
      · exact .inr ⟨value', value, found', found, inside _ (mem_of_find found) same⟩
    | array =>
      cases b with
      | array =>
        have both := (forall₂_and_left _ _).mpr ⟨within, equalItems_iff.mp equal⟩
        exact equalItems_iff.mpr (both.imp fun _ _ each => each.1 each.2).flip
      | _ => cases equal
    | _ => cases b <;> simp_all [Json.equal]

/-! ### Merging a difference -/

theorem nodup_keys_differenceMembers (a : Json) {bMembers result : List (String × Json)}
    (nodup : (keys result).Nodup) : (keys (differenceMembers a bMembers result)).Nodup := by
  induction bMembers generalizing result with
  | nil =>
    rw [differenceMembers]
    exact nodup
  | cons _ _ ih =>
    rw [differenceMembers]
    apply ih
    rw [differenceMember_eq]
    split
    · exact nodup
    · exact nodup_keys_upsert nodup

/-- A difference is an object. -/
theorem isObject_difference (a b : Json) : (dynamicObjectDifference a b).isObject = true ∧
    (keys (dynamicObjectDifference a b).members).Nodup := by
  cases b with
  | object =>
    rw [dynamicObjectDifference]
    split
    · exact ⟨rfl, nodup_keys_differenceMembers a nodup_nil⟩
    · exact ⟨rfl, nodup_nil⟩
  | _ =>
    rw [dynamicObjectDifference]
    · exact ⟨rfl, nodup_nil⟩
    · exact nofun

theorem mergeOpt_differenceValue {old : Json} (isObject : old.isObject = true) (value : Json) :
    mergeOpt (some old) (differenceValue (some old) value) =
      some (dynamicObjectMerge old (dynamicObjectDifference old value)) := by
  simp only [differenceValue, isObject, if_true]
  split
  · next empty =>
    rw [eq_object_of_isObject (isObject_difference old value).1, isEmpty_iff.mp empty, merge_empty]
    rfl
  · rw [mergeOpt, mergeValue_of_isObject isObject]

theorem Proper.merge_difference (properA : Proper a) (properB : Proper b) :
    (dynamicObjectMerge a (dynamicObjectDifference a b)).equal (dynamicObjectMerge a b) = true := by
  induction properA generalizing b with
  | @intro a nodup inside within ih =>
    cases isA : a.isObject with
    | false =>
      rw [merge_of_not_isObject (.inl isA), merge_of_not_isObject (.inl isA)]
      exact (Proper.intro nodup inside within).equal_refl
    | true =>
      obtain ⟨nodup', inside', _⟩ := properB
      refine equal_of_finds (by rw [isObject_merge, isA]) (by rw [isObject_merge, isA])
        (nodup_keys_merge nodup _) (nodup_keys_merge nodup _) fun key => ?_
      rw [find_merge_of_nodup isA nodup', find_merge_of_nodup isA (isObject_difference a b).2,
        find_difference isA nodup']
      cases found' : b.find key with
      | none =>
        exact .refl fun value found => (inside _ (mem_of_find found)).equal_refl
      | some value' =>
        have proper' := inside' _ (mem_of_find found')
        rw [Option.bind_some]
        cases found : a.find key with
        | none => exact .refl fun value same => Option.some.inj same ▸ proper'.equal_refl
        | some value =>
          cases isObject : value.isObject with
          | true =>
            rw [mergeOpt_differenceValue isObject, mergeOpt, mergeValue_of_isObject isObject]
            exact .inr ⟨_, _, rfl, rfl, ih _ (mem_of_find found) proper'⟩
          | false =>
            have replaced := mergeValue_of_not_isObject isObject value'
            cases equal : value.equal value' with
            | true => simp [EqualAt, differenceValue, isObject, equal, mergeOpt, replaced]
            | false => simp [EqualAt, differenceValue, isObject, equal, mergeOpt, replaced,
                proper'.equal_refl]

/-! ### Objects without a difference -/

theorem members_eq_nil_iff : a.members = [] ↔ ∀ key, a.find key = none := by
  unfold find
  cases a.members with
  | nil => simp [AssocList.find]
  | cons member =>
    simp only [reduceCtorEq, false_iff, not_forall]
    exact ⟨member.1, by simp [AssocList.find]⟩

theorem Proper.differenceValue_eq_none_iff (properA : Proper a)
    (nested : a.isObject = true → b.isObject = true →
      ((dynamicObjectDifference a b).members = [] ∧ (dynamicObjectDifference b a).members = [] ↔
        a.equal b = true)) :
    differenceValue (some a) b = none ∧ differenceValue (some b) a = none ↔ a.equal b = true := by
  cases isA : a.isObject with
  | true =>
    cases isB : b.isObject with
    | true => simpa [differenceValue, isA, isB] using nested isA isB
    | false =>
      have differ := equal_of_isObject_ne isB isA
      refine iff_of_false (by simp [differenceValue, isB, differ]) fun equal => ?_
      exact Bool.false_ne_true (differ.symm.trans (properA.equal_symm equal))
  | false =>
    cases isB : b.isObject with
    | true => simp [differenceValue, isA, equal_of_isObject_ne isA isB]
    | false => simpa [differenceValue, isA, isB] using properA.equal_symm

theorem Proper.differences_eq_nil_iff (properA : Proper a) (properB : Proper b)
    (isA : a.isObject = true) (isB : b.isObject = true) :
    (dynamicObjectDifference a b).members = [] ∧ (dynamicObjectDifference b a).members = [] ↔
      a.equal b = true := by
  induction properA generalizing b with
  | @intro a nodup inside _ ih =>
    obtain ⟨nodup', inside', _⟩ := properB
    have each : ∀ key, ((dynamicObjectDifference a b).find key = none ∧
        (dynamicObjectDifference b a).find key = none ↔ EqualAt (a.find key) (b.find key)) := by
      intro key
      rw [find_difference isA nodup', find_difference isB nodup]
      cases found : a.find key with
      | none =>
        cases b.find key with
        | none | some => simp [EqualAt, differenceValue]
      | some =>
        cases found' : b.find key with
        | none => simp [EqualAt, differenceValue]
        | some =>
          rw [Option.bind_some, Option.bind_some,
            (inside _ (mem_of_find found)).differenceValue_eq_none_iff
              (ih _ (mem_of_find found) (inside' _ (mem_of_find found')))]
          simp [EqualAt]
    rw [members_eq_nil_iff, members_eq_nil_iff, ← forall_and, forall_congr' each]
    exact ⟨equal_of_finds isA isB nodup nodup', fun equal => (finds_of_equal isA nodup equal).2.2⟩

/-! ### Which side is reported -/

/-- What the full difference holds for a key. -/
def fullDifferenceValue (first second : Option Json) : Option Json :=
  mergeOpt (second.bind (differenceValue first)) (first.bind (differenceValue second))

theorem Proper.uniqueKeys (proper : Proper a) : a.uniqueKeys = true := by
  induction proper with
  | @intro json nodup _ _ inside _ =>
    cases json with
    | object => exact uniqueKeys_object_iff.mpr ⟨nodup, inside⟩
    | _ => rfl

theorem Proper.atPath {path : List String} {value : Json} (proper : Proper a)
    (reached : a.atPath path = some value) : Proper value := by
  induction path generalizing a with
  | nil => exact Option.some.inj reached ▸ proper
  | cons _ _ ih =>
    obtain ⟨_, found, reached⟩ := Option.bind_eq_some_iff.mp reached
    obtain ⟨_, inside, _⟩ := proper
    exact ih (inside _ (mem_of_find found)) reached

variable {first second : Option Json}

theorem nodup_differenceValue (unique : UniqueOpt second) (json : Json)
    (found : second.bind (differenceValue first) = some json) : (keys json.members).Nodup := by
  obtain ⟨value, isValue, found⟩ := Option.bind_eq_some_iff.mp found
  have nodup := nodup_of_uniqueKeys (unique value isValue)
  cases first with
  | none =>
    cases found
    exact nodup
  | some old =>
    rw [differenceValue] at found
    split at found
    · simp only [Option.ite_none_left_eq_some, Option.some.injEq] at found
      exact found.2 ▸ (isObject_difference old value).2
    · simp only [Option.ite_none_left_eq_some, Option.some.injEq] at found
      exact found.2 ▸ nodup

theorem atPath_fullDifferenceValue (path : List String) (unique : UniqueOpt first)
    (unique' : UniqueOpt second) : (fullDifferenceValue first second).bind (atPath path) =
      fullDifferenceValue (first.bind (atPath path)) (second.bind (atPath path)) := by
  induction path generalizing first second with
  | nil => rw [bind_atPath_nil, bind_atPath_nil, bind_atPath_nil]
  | cons key _ ih =>
    rw [bind_atPath_cons, bind_atPath_cons, bind_atPath_cons, fullDifferenceValue,
      bind_find_mergeOpt (nodup_differenceValue unique), bind_find_differenceValue unique',
      bind_find_differenceValue unique]
    exact ih (unique.bind_find key) (unique'.bind_find key)

theorem difference_of_not_isObject (notObject : b.isObject = false) (a : Json) :
    dynamicObjectDifference a b = .object [] := by
  cases b with
  | object => cases notObject
  | _ => simp [dynamicObjectDifference]

/-- Of two values the first is reported if they differ and are not both objects, and the only one if
there is no other. -/
def Reported (first second reported : Option Json) : Prop :=
  (∀ one two, first = some one → second = some two → one.equal two = false →
      ¬ (one.isObject = true ∧ two.isObject = true) → reported = some one) ∧
    (second = none → reported = first) ∧ (first = none → reported = second)

/-- Only the second value is an object, which is then reported in place of the first. -/
def Hidden (first second : Option Json) : Prop :=
  ∃ one two, first = some one ∧ second = some two ∧ one.isObject = false ∧ two.isObject = true

theorem reported_iff (proper : ∀ value, second = some value → Proper value) :
    Reported first second (fullDifferenceValue first second) ↔ ¬ Hidden first second := by
  cases first with
  | none =>
    cases second with
    | none | some => simp [Reported, Hidden, fullDifferenceValue, differenceValue]
  | some a =>
    cases second with
    | none => simp [Reported, Hidden, fullDifferenceValue, differenceValue]
    | some b =>
      cases isA : a.isObject with
      | true =>
        cases isB : b.isObject with
        | true => simp [Reported, Hidden, isA, isB]
        | false =>
          simp [Reported, Hidden, isA, isB, fullDifferenceValue, differenceValue,
            difference_of_not_isObject isB, members, equal_of_isObject_ne isB isA]
      | false =>
        cases isB : b.isObject with
        | true =>
          have differ : b ≠ a := fun same => by cases isA.symm.trans (same ▸ isB)
          simp [Reported, Hidden, isA, isB, fullDifferenceValue, differenceValue,
            difference_of_not_isObject isA, members, equal_of_isObject_ne isA isB, differ]
        | false =>
          have symm : a.equal b = false → b.equal a = false := by
            simpa using mt (proper b rfl).equal_symm
          simp +contextual [Reported, Hidden, isA, isB, fullDifferenceValue, differenceValue, symm,
            mergeOpt, mergeValue_of_not_isObject isB]

end Json

/-- An object of `folly::dynamic`. -/
structure ProperObject where
  json : Json
  isObject : json.isObject = true
  proper : json.Proper

open Json

/-- Merging the difference is as good as merging the whole, and only equal objects have none. -/
theorem difference_laws (a b : ProperObject) :
    (dynamicObjectMerge a.json (dynamicObjectDifference a.json b.json)).equal
        (dynamicObjectMerge a.json b.json) = true ∧
      ((dynamicObjectFullDifference a.json b.json).members = [] ↔ a.json.equal b.json = true) := by
  refine ⟨a.proper.merge_difference b.proper, ?_⟩
  rw [← a.proper.differences_eq_nil_iff b.proper a.isObject b.isObject, members_eq_nil_iff,
    members_eq_nil_iff, members_eq_nil_iff, ← forall_and]
  refine forall_congr' fun _ => ?_
  rw [dynamicObjectFullDifference,
    find_merge_of_nodup (isObject_difference _ _).1 (isObject_difference _ _).2]
  exact mergeOpt_eq_none_iff

theorem find_fullDifference (a b : ProperObject) (key : String) :
    (dynamicObjectFullDifference a.json b.json).find key =
      fullDifferenceValue (a.json.find key) (b.json.find key) := by
  rw [dynamicObjectFullDifference,
    find_merge_of_nodup (isObject_difference _ _).1 (isObject_difference _ _).2,
    find_difference a.isObject (nodup_of_uniqueKeys b.proper.uniqueKeys),
    find_difference b.isObject (nodup_of_uniqueKeys a.proper.uniqueKeys)]
  rfl

/-- The full difference reports the first side's values, except where only the second side has an
object. -/
theorem fullDifference_reported_iff (a b : ProperObject) (path : List String) :
    Reported (a.json.atPath path) (b.json.atPath path)
        ((dynamicObjectFullDifference a.json b.json).atPath path) ↔
      ¬ Hidden (a.json.atPath path) (b.json.atPath path) := by
  cases path with
  | nil => simp [Reported, Hidden, a.isObject, b.isObject]
  | cons _ path =>
    rw [← reported_iff fun _ => b.proper.atPath, atPath_cons _ _ (dynamicObjectFullDifference _ _),
      find_fullDifference, atPath_fullDifferenceValue path
        (fun _ => uniqueKeys_of_find a.proper.uniqueKeys)
        fun _ => uniqueKeys_of_find b.proper.uniqueKeys]
    rfl

/-- `b`'s object is reported for a key that has a plain value in `a`. -/
theorem fullDifference_hides_value :
    ∃ a b : ProperObject, a.json.find "k" = some (.int 1) ∧ b.json.find "k" = some (.object []) ∧
      (dynamicObjectFullDifference a.json b.json).find "k" = some (.object []) := by
  have single (value : Json) (proper : Proper value) : Proper (.object [("k", value)]) :=
    .intro (by simp [members]) (by simpa [members]) nofun
  refine ⟨⟨.object [("k", .int 1)], rfl, single _ (.intro nodup_nil nofun nofun)⟩,
    ⟨.object [("k", .object [])], rfl, single _ (.intro nodup_nil nofun nofun)⟩, rfl, rfl, ?_⟩
  rw [find_fullDifference]
  simp [AssocList.find, fullDifferenceValue, differenceValue, isObject, equal,
    dynamicObjectDifference, members]

end Differences

section Requests

open ConfigMetadata EStateM Guarded List String

/-- `ConfigHelper::filterValidationResults`. -/
def filterValidationResults (result : ValidationResult) (overrides : Json) : ValidationResult :=
  let contained := fun key => overrides.objectContains (toJsonPointer key)
  { result with
    unrecognizedKeys := result.unrecognizedKeys.filter contained
    readOnlyKeys := result.readOnlyKeys.filter contained
    deprecatedKeys := result.deprecatedKeys.filter contained }

section

variable (env : ConfigEnv)

/-- The check of new overrides against the metadata, which returns the unrecognized keys. -/
def checkNewOverrides (nodeConfigMeta : MetaMap) (fullConfigObj : Json)
    (oldOverrides : Except String Json) (newOverrides : Json) : Except String (List String) := do
  let result ← validate env.conv nodeConfigMeta fullConfigObj
  let oldOverrides ← oldOverrides
  let result :=
    filterValidationResults result (oldOverrides.dynamicObjectDifference newOverrides)
  if !result.readOnlyKeys.isEmpty then
    throw ("Setting read-only keys: " ++ intercalate ", " result.readOnlyKeys)
  if !result.deprecatedKeys.isEmpty then
    throw ("Setting deprecated keys: " ++ intercalate ", " result.deprecatedKeys)
  return result.unrecognizedKeys

/-- A config is built and deserialised; whatever is thrown, the error is the given one. -/
def buildAndDeserialize (errorMsg : String) (build : ConfigM Dynamic) : ConfigM Dynamic :=
  tryCatch
    (do
      let fullConfigObj ← build
      match env.deserialize fullConfigObj.json with
      | .error text => throw text
      | .ok () => return fullConfigObj)
    (fun _ => throw errorMsg)

def unrecognizedMsg (unrecognizedConfigs : List String) : String :=
  if unrecognizedConfigs.isEmpty then ""
  else "Unrecognized configs: " ++ intercalate ", " unrecognizedConfigs

/-! ### Node overrides -/

def oldNodeOverrides (nodesOverrides : Dynamic) (nodeName : String) : Except String Json :=
  if nodesOverrides.isObject then .ok ((nodesOverrides.find nodeName).getD .object).json
  else .error (typeError nodesOverrides.json)

/-- The loop body of `ConfigHelper::validateNewNodeOverrides`, with the results so far. -/
def validateNodeOverrides (topologyNodeNames : List String)
    (soFar : Dynamic × List String) (pair : String × Dynamic) : ConfigM (Dynamic × List String) := do
  let nodeName := pair.1
  let newNodesOverrides := soFar.1.insert nodeName pair.2
  if !topologyNodeNames.contains nodeName then
    throw ("Node " ++ nodeName ++ " does not exist in the topology")
  let helper ← get
  let fullConfigObj ← buildAndDeserialize env ("Could not parse node overrides for " ++ nodeName)
    (buildNodeConfig env (some nodeName) "" none none (some helper.autoNodesOverrides)
      (some helper.networkOverrides) (some newNodesOverrides))
  match checkNewOverrides env helper.nodeConfigMeta fullConfigObj.json
      (oldNodeOverrides helper.nodesOverrides nodeName) pair.2.json with
  | .error text => throw (nodeName ++ ": " ++ text)
  | .ok unrecognizedKeys =>
    return (newNodesOverrides, soFar.2 ++ unrecognizedKeys.map fun key => nodeName ++ ":" ++ key)

/-- `ConfigHelper::validateNewNodeOverrides`: the new overrides, with a warning. -/
def validateNewNodeOverrides (overrides : String) (topologyNodeNames : List String) :
    ConfigM (Dynamic × String) := do
  match env.parseJson overrides with
  | .error _ => throw "Could not parse config overrides"
  | .ok requestOverrides =>
    if !requestOverrides.isObject then throw (typeError requestOverrides.json)
    let validated ← requestOverrides.items.foldlM (validateNodeOverrides env topologyNodeNames)
      (.object, [])
    if validated.1.json.members.isEmpty then throw "No new node overrides found"
    return (validated.1, unrecognizedMsg validated.2)

/-- `ConfigHelper::setNewNodeOverrides`. -/
def setNewNodeOverrides (overrides : Dynamic) : ConfigM Unit := do
  match env.storeJsonFile overrides with
  | .error _ =>
    throw ("Unable to write per-node config overrides to " ++ (← get).nodeConfigOverridesFile)
  | .ok stored => modify fun helper => { helper with nodesOverrides := stored }

def updatedNodeConfig (overwrite : Bool) (old : Option Dynamic) (new : Dynamic) : Dynamic :=
  if overwrite then new else (old.getD .object).merge new

/-- `ConfigHelper::validateAndSetNewNodeOverrides`, which returns the warning. -/
def validateAndSetNewNodeOverrides (overrides : String) (topologyNodeNames : List String)
    (overwrite : Bool) : ConfigM String := do
  let (newNodesOverrides, errorMsg) ← validateNewNodeOverrides env overrides topologyNodeNames
  let helper ← get
  let fullNodeOverrides := newNodesOverrides.items.foldl
    (fun target pair =>
      target.insert pair.1 (updatedNodeConfig overwrite (target.find pair.1) pair.2))
    helper.nodesOverrides
  setNewNodeOverrides env fullNodeOverrides
  return errorMsg

/-! ### Network overrides -/

/-- `ConfigHelper::validateNewNetworkOverrides`: the new overrides, with a warning. -/
def validateNewNetworkOverrides (overrides : String) : ConfigM (Dynamic × String) := do
  match env.parseJson overrides with
  | .error _ => throw "Could not parse network config overrides"
  | .ok newNetworkOverrides =>
    let helper ← get
    let fullConfigObj ← buildAndDeserialize env "Could not serialize network config overrides"
      (buildNodeConfig env none "" none none (some helper.autoNodesOverrides)
        (some newNetworkOverrides) (some helper.nodesOverrides))
    match checkNewOverrides env helper.nodeConfigMeta fullConfigObj.json
        (.ok helper.networkOverrides.json) newNetworkOverrides.json with
    | .error text => throw text
    | .ok unrecognizedKeys => return (newNetworkOverrides, unrecognizedMsg unrecognizedKeys)

/-- `ConfigHelper::setNewNetworkOverrides`. -/
def setNewNetworkOverrides (overrides : Dynamic) : ConfigM Unit :=
  match env.storeJsonFile overrides with
  | .error _ => throw "Unable to write network config overrides"
  | .ok stored => modify fun helper => { helper with networkOverrides := stored }

/-- `ConfigHelper::validateAndSetNewNetworkOverrides`, which returns the warning. -/
def validateAndSetNewNetworkOverrides (overrides : String) (overwrite : Bool) : ConfigM String := do
  let (newNetworkOverrides, errorMsg) ← validateNewNetworkOverrides env overrides
  let helper ← get
  setNewNetworkOverrides env
    (if overwrite then newNetworkOverrides
      else helper.networkOverrides.merge newNetworkOverrides)
  return errorMsg

end

/-- A working file system: what is written is read again, up to the order of members. -/
def ConfigEnv.Working (env : ConfigEnv) : Prop :=
  ∀ value, ∃ stored, env.storeJsonFile value = .ok stored ∧ Json.Same value.json stored.json

/-! ### What an accepted request has passed -/

section

variable {env : ConfigEnv}

/-- The check found no protected key in what the request changes. -/
structure ChecksPassed (env : ConfigEnv) (nodeConfigMeta : MetaMap) (fullConfigObj old new : Json) :
    Prop where
  returned : ∃ result, validate env.conv nodeConfigMeta fullConfigObj = .ok result ∧
    (filterValidationResults result (old.dynamicObjectDifference new)).readOnlyKeys = [] ∧
    (filterValidationResults result (old.dynamicObjectDifference new)).deprecatedKeys = []

theorem checkNewOverrides_ok {nodeConfigMeta : MetaMap} {fullConfigObj new : Json}
    {oldOverrides : Except String Json} {unrecognized : List String}
    (returned : checkNewOverrides env nodeConfigMeta fullConfigObj oldOverrides new =
      .ok unrecognized) :
    ∃ old, oldOverrides = .ok old ∧ ChecksPassed env nodeConfigMeta fullConfigObj old new := by
  obtain ⟨result, validated, returned⟩ := except_bind_eq_ok.mp returned
  obtain ⟨old, isOld, returned⟩ := except_bind_eq_ok.mp returned
  refine ⟨old, isOld, ⟨result, validated, ?_⟩⟩
  simp only [bind] at returned
  split at returned
  · cases returned
  · next noReadOnly =>
    split at returned
    · cases returned
    · next noDeprecated => exact ⟨by simpa using noReadOnly, by simpa using noDeprecated⟩

variable {errorMsg : String}

theorem buildAndDeserialize_ok {build : ConfigM Dynamic}
    {helper helper' built : ConfigHelper} {config config' : Dynamic}
    (building : build.run helper = .ok config built)
    (returned : (buildAndDeserialize env errorMsg build).run helper = .ok config' helper') :
    config' = config ∧ helper' = built := by
  have started : build helper = .ok config built := building
  simp only [buildAndDeserialize, tryCatch, tryCatchThe, MonadExceptOf.tryCatch, EStateM.run,
    EStateM.tryCatch, bind, EStateM.bind, started] at returned
  cases deserialized : env.deserialize config.json with
  | error =>
    rw [deserialized] at returned
    cases returned
  | ok =>
    rw [deserialized] at returned
    cases returned
    exact ⟨rfl, rfl⟩

structure Loaded (env : ConfigEnv) (helper helper' : ConfigHelper) : Prop extends
    Kept helper helper' where
  latestBase : helper'.latestBase env = helper.latestBase env

variable (helper : ConfigHelper)

theorem Loaded.refl : Loaded env helper helper := ⟨.refl helper, rfl⟩

theorem Loaded.trans {first second third : ConfigHelper} (one : Loaded env first second)
    (two : Loaded env second third) : Loaded env first third :=
  ⟨one.toKept.trans two.toKept, two.latestBase.trans one.latestBase⟩

theorem Loaded.withBase : Loaded env helper (helper.withBase env) :=
  ⟨.getBaseConfig helper _, helper.latestBase_withBase env⟩

/-- The config of a node with the given overrides on top. -/
def ConfigHelper.nodeConfigWith (env : ConfigEnv) (helper : ConfigHelper) (nodeName : String)
    (overrides : Dynamic) : Dynamic :=
  (helper.latestBase env).merge
    ((((helper.autoNodesOverrides.find nodeName).getD .object).merge helper.networkOverrides).merge
      overrides)

def ConfigHelper.storedOverrides (nodeName : String) : Dynamic :=
  (helper.nodesOverrides.find nodeName).getD .object

/-- A node override of a request has been accepted. -/
structure NodeAccepted (env : ConfigEnv) (helper : ConfigHelper) (topologyNodeNames : List String)
    (pair : String × Dynamic) : Prop where
  known : pair.1 ∈ topologyNodeNames
  isObject : helper.nodesOverrides.isObject = true
  passed : ChecksPassed env helper.nodeConfigMeta (helper.nodeConfigWith env pair.1 pair.2).json
    (helper.storedOverrides pair.1).json pair.2.json

variable {helper' : ConfigHelper} {helper} {topologyNodeNames : List String}
  {pair : String × Dynamic}

theorem NodeAccepted.of_loaded (loaded : Loaded env helper helper')
    (accepted : NodeAccepted env helper' topologyNodeNames pair) :
    NodeAccepted env helper topologyNodeNames pair := by
  obtain ⟨known, isObject, passed⟩ := accepted
  rw [loaded.nodesOverrides] at isObject
  rw [ConfigHelper.nodeConfigWith, ConfigHelper.storedOverrides, loaded.nodeConfigMeta,
    loaded.latestBase, loaded.autoNodesOverrides, loaded.networkOverrides,
    loaded.nodesOverrides] at passed
  exact ⟨known, isObject, passed⟩

theorem getConfigOverridesForNode_insert (nodeName : String) (auto network target value : Dynamic) :
    helper.getConfigOverridesForNode (some nodeName) (some auto) (some network)
      (some (target.insert nodeName value)) =
    (((auto.find nodeName).getD .object).merge network).merge value := by
  have layer : nodeLayer (some nodeName) (some (target.insert nodeName value))
      helper.nodesOverrides = some value := by
    show (target.insert nodeName value).find nodeName = some value
    rw [Dynamic.find_insert, if_pos rfl]
  rw [ConfigHelper.getConfigOverridesForNode, layer]
  rfl

theorem oldNodeOverrides_ok {nodesOverrides : Dynamic} {nodeName : String} {old : Json}
    (returned : oldNodeOverrides nodesOverrides nodeName = .ok old) :
    nodesOverrides.isObject = true ∧ old = ((nodesOverrides.find nodeName).getD .object).json := by
  rw [oldNodeOverrides] at returned
  split at returned
  · next isObject =>
    cases returned
    exact ⟨isObject, rfl⟩
  · cases returned

variable {soFar soFar' : Dynamic × List String}

theorem validateNodeOverrides_ok
    (returned : (validateNodeOverrides env topologyNodeNames soFar pair).run helper =
      .ok soFar' helper') :
    Loaded env helper helper' ∧ soFar'.1 = soFar.1.insert pair.1 pair.2 ∧
      NodeAccepted env helper topologyNodeNames pair := by
  obtain ⟨nodeName, value⟩ := pair
  rw [validateNodeOverrides] at returned
  split at returned
  · cases returned
  · next known =>
    rw [get_bind_eq_ok] at returned
    obtain ⟨_, _, built, returned⟩ := bind_eq_ok.mp returned
    obtain ⟨rfl, rfl⟩ := buildAndDeserialize_ok (run_buildNodeConfig env helper (some nodeName)
      helper.autoNodesOverrides helper.networkOverrides (soFar.1.insert nodeName value)) built
    rw [getConfigOverridesForNode_insert] at returned
    split at returned
    · cases returned
    · next _ passed =>
      cases returned
      obtain ⟨_, isOld, passed⟩ := checkNewOverrides_ok passed
      obtain ⟨isObject, rfl⟩ := oldNodeOverrides_ok isOld
      exact ⟨.withBase helper, rfl, by simpa using known, isObject, passed⟩

theorem foldlM_validateNodeOverrides_ok {pairs : List (String × Dynamic)}
    (returned : (pairs.foldlM (validateNodeOverrides env topologyNodeNames) soFar).run helper =
      .ok soFar' helper') :
    Loaded env helper helper' ∧
      soFar'.1 = pairs.foldl (fun target pair => target.insert pair.1 pair.2) soFar.1 ∧
      ∀ pair ∈ pairs, NodeAccepted env helper topologyNodeNames pair := by
  induction pairs generalizing soFar helper with
  | nil =>
    cases returned
    exact ⟨.refl _, rfl, fun _ member => absurd member not_mem_nil⟩
  | cons _ rest ih =>
    rw [foldlM_cons, bind_eq_ok] at returned
    obtain ⟨_, _, first, returned⟩ := returned
    obtain ⟨loaded, inserted, accepted⟩ := validateNodeOverrides_ok first
    obtain ⟨later, rest, others⟩ := ih returned
    refine ⟨loaded.trans later, ?_, forall_mem_cons.mpr ⟨accepted, ?_⟩⟩
    · rw [rest, inserted, foldl_cons]
    · intro other member
      exact (others other member).of_loaded loaded

/-- An accepted request to set node overrides is an object whose members are accepted. -/
structure NodesAccepted (env : ConfigEnv) (helper : ConfigHelper) (overrides : String)
    (topologyNodeNames : List String) (request : Dynamic) : Prop where
  parsed : env.parseJson overrides = .ok request
  isObject : request.isObject = true
  nonempty : ∃ nodeName value, request.find nodeName = some value
  each : ∀ nodeName value, request.find nodeName = some value →
    NodeAccepted env helper topologyNodeNames (nodeName, value)

variable {overrides : String} {reply : Dynamic × String}

theorem validateNewNodeOverrides_ok
    (returned : (validateNewNodeOverrides env overrides topologyNodeNames).run helper =
      .ok reply helper') :
    ∃ request, NodesAccepted env helper overrides topologyNodeNames request ∧
      Loaded env helper helper' ∧ ∀ nodeName, reply.1.find nodeName = request.find nodeName := by
  rw [validateNewNodeOverrides] at returned
  split at returned
  · cases returned
  · next request parsed =>
    split at returned
    · cases returned
    · next isObject =>
      have isObject : request.isObject = true := by simpa using isObject
      obtain ⟨validated, _, looped, returned⟩ := bind_eq_ok.mp returned
      obtain ⟨loaded, inserted, accepted⟩ := foldlM_validateNodeOverrides_ok looped
      split at returned
      · cases returned
      · next nonempty =>
        cases returned
        have finds : ∀ nodeName, validated.1.find nodeName = request.find nodeName :=
          fun nodeName => inserted ▸ request.find_foldl_items nodeName
        refine ⟨request, ⟨parsed, isObject, ?_, ?_⟩, loaded, finds⟩
        · obtain ⟨nodeName, value, found⟩ := validated.1.exists_find (by simpa using nonempty)
          exact ⟨nodeName, value, finds nodeName ▸ found⟩
        · intro nodeName value found
          exact accepted (nodeName, value) (Dynamic.mem_items.mpr found)

/-- The helper has the overrides that were read back after the updated ones were written. -/
structure NodesSet (env : ConfigEnv) (helper helper' : ConfigHelper) (overwrite : Bool)
    (request : Dynamic) : Prop where
  nodeConfigMeta : helper'.nodeConfigMeta = helper.nodeConfigMeta
  latestBase : helper'.latestBase env = helper.latestBase env
  autoNodesOverrides : helper'.autoNodesOverrides = helper.autoNodesOverrides
  networkOverrides : helper'.networkOverrides = helper.networkOverrides
  nodesOverrides : ∃ full : Dynamic, env.storeJsonFile full = .ok helper'.nodesOverrides ∧
    full.isObject = true ∧ ∀ nodeName, full.find nodeName =
      match request.find nodeName with
      | none => helper.nodesOverrides.find nodeName
      | some new =>
        some (updatedNodeConfig overwrite (helper.nodesOverrides.find nodeName) new)

theorem isObject_foldl_insert {update : Option Dynamic → Dynamic → Dynamic}
    (pairs : List (String × Dynamic)) {start : Dynamic} (isObject : start.isObject = true) :
    (pairs.foldl (fun target pair =>
      target.insert pair.1 (update (target.find pair.1) pair.2)) start).isObject = true := by
  induction pairs generalizing start with
  | nil => exact isObject
  | cons _ _ ih =>
    exact ih rfl

theorem validateAndSetNewNodeOverrides_ok {overwrite : Bool}
    (returned : (validateAndSetNewNodeOverrides env overrides topologyNodeNames overwrite).run helper =
      .ok errorMsg helper') :
    ∃ request, NodesAccepted env helper overrides topologyNodeNames request ∧
      NodesSet env helper helper' overwrite request := by
  obtain ⟨⟨newNodesOverrides, _⟩, middle, validated, returned⟩ := bind_eq_ok.mp returned
  obtain ⟨request, accepted, loaded, finds⟩ := validateNewNodeOverrides_ok validated
  rw [get_bind_eq_ok, bind_eq_ok] at returned
  obtain ⟨_, _, set, returned⟩ := returned
  rw [setNewNodeOverrides] at set
  split at set
  · cases set
  · next _ stored =>
    cases set
    cases returned
    have isObject : middle.nodesOverrides.isObject = true := by
      obtain ⟨nodeName, value, found⟩ := accepted.nonempty
      rw [loaded.nodesOverrides]
      exact (accepted.each nodeName value found).isObject
    refine ⟨request, accepted, loaded.nodeConfigMeta, loaded.latestBase, loaded.autoNodesOverrides,
      loaded.networkOverrides, _, stored, isObject_foldl_insert _ isObject, ?_⟩
    intro nodeName
    rewrite [Dynamic.find_foldl_insert (updatedNodeConfig overwrite)
      newNodesOverrides.nodup_keys_items, Dynamic.find_items, finds nodeName,
      loaded.nodesOverrides]
    cases request.find nodeName with
    | none | some new => rfl

/-! ### Network overrides -/

/-- A request to set the network overrides has been accepted. -/
structure NetworkAccepted (env : ConfigEnv) (helper : ConfigHelper) (overrides : String)
    (request : Dynamic) : Prop where
  parsed : env.parseJson overrides = .ok request
  passed : ChecksPassed env helper.nodeConfigMeta
    ((helper.latestBase env).merge (Dynamic.object.merge request)).json
    helper.networkOverrides.json request.json

/-- A request that returns has been accepted, and the layers are as before. -/
theorem validateNewNetworkOverrides_ok
    (returned : (validateNewNetworkOverrides env overrides).run helper = .ok reply helper') :
    NetworkAccepted env helper overrides reply.1 ∧ Loaded env helper helper' := by
  rw [validateNewNetworkOverrides] at returned
  split at returned
  · cases returned
  · next request parsed =>
    rw [get_bind_eq_ok] at returned
    obtain ⟨_, _, built, returned⟩ := bind_eq_ok.mp returned
    obtain ⟨rfl, rfl⟩ := buildAndDeserialize_ok (run_buildNodeConfig env helper none
      helper.autoNodesOverrides request helper.nodesOverrides) built
    split at returned
    · cases returned
    · next _ passed =>
      cases returned
      obtain ⟨_, isOld, passed⟩ := checkNewOverrides_ok passed
      cases isOld
      exact ⟨⟨parsed, passed⟩, .withBase helper⟩

theorem validateAndSetNewNetworkOverrides_ok {overwrite : Bool}
    (returned : (validateAndSetNewNetworkOverrides env overrides overwrite).run helper =
      .ok errorMsg helper') :
    ∃ request, NetworkAccepted env helper overrides request ∧
      env.storeJsonFile (if overwrite then request else helper.networkOverrides.merge request) =
        .ok helper'.networkOverrides := by
  obtain ⟨⟨request, _⟩, _, validated, returned⟩ := bind_eq_ok.mp returned
  obtain ⟨accepted, loaded⟩ := validateNewNetworkOverrides_ok validated
  rw [get_bind_eq_ok, bind_eq_ok] at returned
  obtain ⟨_, _, set, returned⟩ := returned
  rw [setNewNetworkOverrides, loaded.networkOverrides] at set
  split at set
  · cases set
  · next _ stored =>
    cases set
    cases returned
    exact ⟨request, accepted, stored⟩

end

end Requests

end Terragraph
