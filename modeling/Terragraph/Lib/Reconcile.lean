/-
Module: Terragraph.Lib.Reconcile
Purpose: A keyed table that is changed one entry at a time.
Trusted boundary: none
Main exports: Table, settle_ne_none, settle_ne_none_of_notMem
-/
import Terragraph.Lib.AssocList

namespace Reconcile

open List AssocList Function

variable {κ ω α : Type}

abbrev Table (κ ω : Type) : Type := κ → Option ω

def Shows (table : Table κ ω) (entries : List (κ × ω)) : Prop :=
  ∀ key value, table key = some value ↔ (key, value) ∈ entries

def Distinct (entry : α → Option (κ × ω)) (items : List α) : Prop :=
  (items.map fun item => (entry item).map Prod.fst).Nodup

instance [DecidableEq κ] (entry : α → Option (κ × ω)) (items : List α) :
    Decidable (Distinct entry items) :=
  inferInstanceAs (Decidable (List.Nodup _))

variable {key : κ} {entry : α → Option (κ × ω)}

theorem Distinct.eq {items : List α}
    (distinct : Distinct entry items) {one two : α} (isOne : one ∈ items) (isTwo : two ∈ items)
    {value value' : ω} (oneEntry : entry one = some (key, value))
    (twoEntry : entry two = some (key, value')) : one = two := by
  apply inj_on_of_nodup_map distinct isOne isTwo
  rw [oneEntry, twoEntry]
  rfl

section Changes

variable [DecidableEq κ]

def dropAll (keys : List κ) (table : Table κ ω) : Table κ ω :=
  keys.foldl (fun table key => update table key none) table

def putAll (entries : List (κ × ω)) (table : Table κ ω) : Table κ ω :=
  entries.foldl (fun table entry => update table entry.1 (some entry.2)) table

theorem dropAll_apply (keys : List κ) (table : Table κ ω) (key : κ) :
    dropAll keys table key = if key ∈ keys then none else table key := by
  induction keys generalizing table with
  | nil => simp [dropAll]
  | cons first _ ih =>
    have next := ih (update table first none)
    rw [dropAll] at next ⊢
    rw [foldl_cons, next]
    by_cases here : key = first
    · subst here
      simp
    · simp [here]

theorem putAll_apply (entries : List (κ × ω)) (table : Table κ ω) (key : κ) :
    putAll entries table key = (find key entries.reverse).or (table key) := by
  induction entries generalizing table with
  | nil => simp [putAll, find]
  | cons first _ ih =>
    have next := ih (update table first.1 (some first.2))
    rw [putAll] at next ⊢
    rw [foldl_cons, next, reverse_cons, find_append]
    rw [find, find]
    by_cases here : key = first.1
    · subst here
      simp
    · simp [here, Ne.symm here]

variable {entries : List (κ × ω)}

theorem find_reverse_eq_none : find key entries.reverse = none ↔ key ∉ keys entries := by
  rw [← not_iff_not, not_not, ← ne_eq, find_ne_none_iff, AssocList.keys, map_reverse, mem_reverse]

variable {table : Table κ ω}

theorem Shows.find (shows : Shows table entries) (key : κ) :
    AssocList.find key entries = table key := by
  cases found : AssocList.find key entries with
  | some value => exact ((shows key value).mpr (AssocList.mem_of_find found)).symm
  | none =>
    cases stored : table key with
    | none => rfl
    | some value =>
      have member : key ∈ keys entries :=
        mem_map_of_mem ((shows key value).mp stored)
      exact absurd found (find_ne_none_iff.mpr member)

/-- Exactly when some keys can be dropped and some entries put without an effect. -/
theorem Shows.unchanged_iff {entries put : List (κ × ω)} {dropped : List κ}
    (shows : Shows table entries) :
    Shows (putAll put (dropAll dropped table)) entries ↔ ∀ key, key ∈ dropped ∨ key ∈ keys put →
        AssocList.find key put.reverse = AssocList.find key entries := by
  constructor
  · intro shown key touched
    rw [shown.find, putAll_apply, dropAll_apply]
    cases found : AssocList.find key put.reverse with
    | some => rfl
    | none =>
      rcases touched with isDropped | isPut
      · rw [if_pos isDropped]
        rfl
      · exact absurd isPut (find_reverse_eq_none.mp found)
  · intro same key value
    rw [← shows key value, putAll_apply, dropAll_apply]
    by_cases touched : key ∈ dropped ∨ key ∈ keys put
    · have back := same key touched
      rw [shows.find] at back
      rw [back]
      by_cases stored : table key = none
      · rw [stored]
        split
        · rfl
        · rfl
      · obtain ⟨_, isValue⟩ := Option.ne_none_iff_exists'.mp stored
        rw [isValue]
        rfl
    · obtain ⟨notDropped, notPut⟩ := not_or.mp touched
      rw [find_reverse_eq_none.mpr notPut, if_neg notDropped, Option.none_or]

end Changes

/-! ### From one list of items to another -/

theorem mem_keys_filterMap {items : List α} :
    key ∈ keys (items.filterMap entry) ↔
      ∃ item ∈ items, ∃ value, entry item = some (key, value) := by
  rw [mem_map]
  constructor
  · rintro ⟨⟨_, value⟩, member, rfl⟩
    obtain ⟨item, isItem, stands⟩ := mem_filterMap.mp member
    exact ⟨item, isItem, value, stands⟩
  · rintro ⟨item, isItem, value, stands⟩
    exact ⟨(key, value), mem_filterMap.mpr ⟨item, isItem, stands⟩, rfl⟩

section Items

variable [DecidableEq α]

def removed (old new : List α) : List α := old.filter fun item => item ∉ new

def added (old new : List α) : List α := new.filter fun item => item ∉ old

variable {old new : List α} {item : α}

theorem mem_removed : item ∈ removed old new ↔ item ∈ old ∧ item ∉ new := by
  simp [removed]

theorem mem_added : item ∈ added old new ↔ item ∈ new ∧ item ∉ old := by
  simp [added]

variable [DecidableEq κ]

/-- Drop what leaves, then put what is new. -/
def reconciled (entry : α → Option (κ × ω)) (old new : List α) (table : Table κ ω) :
    Table κ ω :=
  putAll ((added old new).filterMap entry)
    (dropAll (keys ((removed old new).filterMap entry)) table)

theorem reconciled_apply (old new : List α) (table : Table κ ω) (key : κ) :
    reconciled entry old new table key = (find key ((added old new).filterMap entry).reverse).or
        (if key ∈ keys ((removed old new).filterMap entry) then none else table key) := by
  rw [reconciled, putAll_apply, dropAll_apply]

variable {table : Table κ ω}

/-- A table of the old items shows the new ones afterwards exactly if these agree on every key, and
a key that leaves with one item and stays with another is put again. -/
theorem Shows.reconciled_iff (shows : Shows table (old.filterMap entry)) :
    Shows (reconciled entry old new table) (new.filterMap entry) ↔
      (∀ one ∈ new.filterMap entry, ∀ two ∈ new.filterMap entry, one.1 = two.1 → one = two) ∧
      ∀ key ∈ keys ((removed old new).filterMap entry), key ∈ keys (new.filterMap entry) →
          key ∈ keys ((added old new).filterMap entry) := by
  constructor
  · intro shown
    constructor
    · rintro ⟨key, value⟩ isOne ⟨_, value'⟩ isTwo same
      cases same
      have first := (shown key value).mpr isOne
      rw [(shown key value').mpr isTwo] at first
      cases first
      rfl
    · intro _ leaves stays
      by_contra notAdded
      obtain ⟨⟨_, value⟩, member, rfl⟩ := mem_map.mp stays
      have present := (shown _ value).mpr member
      rw [reconciled_apply, find_reverse_eq_none.mpr notAdded, if_pos leaves] at present
      cases present
  · rintro ⟨agree, again⟩ key value
    rw [reconciled_apply]
    cases put : AssocList.find key ((added old new).filterMap entry).reverse with
    | some =>
      obtain ⟨item, isAdded, stands⟩ := mem_filterMap.mp (mem_reverse.mp (mem_of_find put))
      have isNew := mem_filterMap.mpr ⟨item, (mem_added.mp isAdded).1, stands⟩
      constructor
      · intro same
        cases same
        exact isNew
      · intro member
        cases agree _ isNew _ member rfl
        rfl
    | none =>
      have notPut := find_reverse_eq_none.mp put
      rw [Option.none_or]
      split
      · next leaves =>
        constructor
        · intro impossible
          cases impossible
        · intro member
          exact absurd (again key leaves (mem_map_of_mem member)) notPut
      · next stays =>
        rw [shows key value, mem_filterMap, mem_filterMap]
        constructor
        · rintro ⟨item, isOld, stands⟩
          refine ⟨item, ?_, stands⟩
          by_contra notNew
          apply stays
          exact mem_keys_filterMap.mpr ⟨item, mem_removed.mpr ⟨isOld, notNew⟩, value, stands⟩
        · rintro ⟨item, isNew, stands⟩
          refine ⟨item, ?_, stands⟩
          by_contra notOld
          apply notPut
          exact mem_keys_filterMap.mpr ⟨item, mem_added.mpr ⟨isNew, notOld⟩, value, stands⟩

theorem Shows.reconciled (shows : Shows table (old.filterMap entry))
    (oldDistinct : Distinct entry old) (newDistinct : Distinct entry new) :
    Shows (reconciled entry old new table) (new.filterMap entry) := by
  rw [shows.reconciled_iff]
  constructor
  · rintro ⟨_, _⟩ isOne ⟨_, _⟩ isTwo same
    cases same
    obtain ⟨_, oneNew, oneStands⟩ := mem_filterMap.mp isOne
    obtain ⟨_, twoNew, twoStands⟩ := mem_filterMap.mp isTwo
    have sameItem := newDistinct.eq oneNew twoNew oneStands twoStands
    rw [sameItem, twoStands] at oneStands
    exact (Option.some.inj oneStands).symm
  · intro _ leaves stays
    obtain ⟨_, isRemoved, _, goneStands⟩ := mem_keys_filterMap.mp leaves
    obtain ⟨kept, isNew, value, keptStands⟩ := mem_keys_filterMap.mp stays
    obtain ⟨wasOld, notNew⟩ := mem_removed.mp isRemoved
    refine mem_keys_filterMap.mpr ⟨kept, mem_added.mpr ⟨isNew, fun isOld => ?_⟩, value, keptStands⟩
    exact notNew (oldDistinct.eq wasOld isOld goneStands keptStands ▸ isNew)

/-- The table holds one entry for each item, and nothing else. -/
structure Holding (entry : α → Option (κ × ω)) (items : List α) (table : Table κ ω) : Prop where
  shows : Shows table (items.filterMap entry)
  distinct : Distinct entry items
  total : ∀ item ∈ items, (entry item).isSome

/-! ### A sequence of lists -/

/-- One list after the other takes the place of the one before. -/
def settle (entry : α → Option (κ × ω)) (old : List α) :
    List (List α) → Table κ ω → Table κ ω
  | [], table => table
  | new :: rest, table => settle entry new rest (reconciled entry old new table)

def latest (old : List α) (lists : List (List α)) : List α := lists.getLast?.getD old

omit [DecidableEq α] in
@[simp] theorem latest_nil (old : List α) : latest old [] = old := rfl

omit [DecidableEq α] in
theorem latest_cons (old new : List α) (rest : List (List α)) :
    latest old (new :: rest) = latest new rest := by
  rw [latest, getLast?_cons]
  rfl

variable {lists : List (List α)}

theorem Holding.settle (holding : Holding entry old table)
    (distinct : ∀ new ∈ lists, Distinct entry new)
    (total : ∀ new ∈ lists, ∀ item ∈ new, (entry item).isSome) :
    Holding entry (latest old lists) (settle entry old lists table) := by
  induction lists generalizing old table with
  | nil => exact holding
  | cons _ _ ih =>
    rw [latest_cons, Reconcile.settle]
    obtain ⟨newDistinct, restDistinct⟩ := forall_mem_cons.mp distinct
    obtain ⟨newTotal, restTotal⟩ := forall_mem_cons.mp total
    apply ih _ restDistinct restTotal
    exact ⟨holding.shows.reconciled holding.distinct newDistinct, newDistinct, newTotal⟩

/-- No list takes the key away. -/
def Stays (entry : α → Option (κ × ω)) (key : κ) : List α → List (List α) → Prop
  | _, [] => True
  | old, new :: rest =>
    key ∉ keys ((removed old new).filterMap entry) ∧ Stays entry key new rest

/-- Some list puts the key, and no later one takes it away. -/
def Enters (entry : α → Option (κ × ω)) (key : κ) : List α → List (List α) → Prop
  | _, [] => False
  | old, new :: rest =>
    (key ∈ keys ((added old new).filterMap entry) ∧ Stays entry key new rest) ∨
      Enters entry key new rest

theorem reconciled_ne_none : reconciled entry old new table key ≠ none ↔
      key ∈ keys ((added old new).filterMap entry) ∨
        (table key ≠ none ∧ key ∉ keys ((removed old new).filterMap entry)) := by
  rw [reconciled_apply]
  by_cases isAdded : key ∈ keys ((added old new).filterMap entry)
  · have put := find_reverse_eq_none.not.mpr (not_not.mpr isAdded)
    obtain ⟨_, isValue⟩ := Option.ne_none_iff_exists'.mp put
    simp [isValue, isAdded]
  · rw [find_reverse_eq_none.mpr isAdded]
    by_cases isRemoved : key ∈ keys ((removed old new).filterMap entry)
    · simp [isAdded, isRemoved]
    · simp [isAdded, isRemoved]

/-- As long as an item stays, fewer keys are dropped than there are old items. -/
theorem exists_reconciled_ne_none {present : List κ} (nodup : present.Nodup)
    (sameLength : present.length = old.length) (stored : ∀ key ∈ present, table key ≠ none)
    (isOld : item ∈ old) (isNew : item ∈ new) :
    ∃ key, reconciled entry old new table key ≠ none := by
  by_contra nothing
  have allDropped : present ⊆ keys ((removed old new).filterMap entry) := by
    intro key isPresent
    by_contra kept
    exact nothing ⟨key, reconciled_ne_none.mpr (.inr ⟨stored key isPresent, kept⟩)⟩
  have atMost := (subperm_of_subset nodup allDropped).length_le
  have fewer : (removed old new).length < old.length := by
    rw [removed, length_filter_lt_length_iff_exists]
    exact ⟨item, isOld, by simpa using isNew⟩
  have keysLength := length_filterMap_le entry (removed old new)
  rw [length_map] at atMost
  omega

/-- A key is present at the end if it was and stays, or if a list enters it. -/
theorem settle_ne_none : settle entry old lists table key ≠ none ↔
      (table key ≠ none ∧ Stays entry key old lists) ∨ Enters entry key old lists := by
  induction lists generalizing old table with
  | nil => simp [settle, Stays, Enters]
  | cons _ _ ih =>
    rw [settle, ih, reconciled_ne_none, Stays, Enters]
    tauto

/-- A key of no item of the last list is left exactly if no list before has it either. -/
theorem settle_ne_none_of_notMem (absent : key ∉ keys ((latest old lists).filterMap entry)) :
    settle entry old lists table key ≠ none ↔
      table key ≠ none ∧ ∀ list ∈ old :: lists, key ∉ keys (list.filterMap entry) := by
  induction lists generalizing old table with
  | nil => simpa [settle] using fun _ => absent
  | cons new rest ih =>
    rw [latest_cons] at absent
    rw [settle, ih absent, reconciled_ne_none, forall_mem_cons, forall_mem_cons, forall_mem_cons]
    by_cases isNew : key ∈ keys (new.filterMap entry)
    · simp [isNew]
    · have notAdded : key ∉ keys ((added old new).filterMap entry) := by
        intro isAdded
        obtain ⟨item, member, stands⟩ := mem_keys_filterMap.mp isAdded
        exact isNew (mem_keys_filterMap.mpr ⟨item, (mem_added.mp member).1, stands⟩)
      have leaves : key ∈ keys ((removed old new).filterMap entry) ↔
          key ∈ keys (old.filterMap entry) := by
        simp only [mem_keys_filterMap, mem_removed] at isNew ⊢
        constructor
        · rintro ⟨item, ⟨isOld, _⟩, stands⟩
          exact ⟨item, isOld, stands⟩
        · rintro ⟨item, isOld, stands⟩
          exact ⟨item, ⟨isOld, fun stays => isNew ⟨item, stays, stands⟩⟩, stands⟩
      rw [leaves]
      tauto

end Items

end Reconcile
