/-
Module: Terragraph.Lib.AssocList
Purpose: Finite maps as lists of their entries, in the order in which the map is traversed.
Trusted boundary: none
Main exports: find, mem_keys_foldl_upsert
-/
import Mathlib

namespace AssocList

open List

variable {κ ν : Type} [DecidableEq κ]

abbrev keys (entries : List (κ × ν)) : List κ := entries.map Prod.fst

def find (k : κ) : List (κ × ν) → Option ν
  | [] => none
  | (key, value) :: rest => if key = k then some value else find k rest

/-- Change the value under a key; for a missing key, the value that `fresh` is changed to is
entered. -/
def upsert (fresh : ν) (k : κ) (f : ν → ν) : List (κ × ν) → List (κ × ν)
  | [] => [(k, f fresh)]
  | (key, value) :: rest =>
    if key = k then (key, f value) :: rest else (key, value) :: upsert fresh k f rest

def remove (k : κ) (entries : List (κ × ν)) : List (κ × ν) :=
  entries.filter fun entry => entry.1 ≠ k

omit [DecidableEq κ] in
@[simp] theorem keys_cons (entry : κ × ν) (rest : List (κ × ν)) :
    keys (entry :: rest) = entry.1 :: keys rest := rfl

variable {k : κ} {entries : List (κ × ν)}

theorem find_ne_none_iff : find k entries ≠ none ↔ k ∈ keys entries := by
  induction entries with
  | nil => simp [find]
  | cons _ _ ih =>
    rw [find]
    split
    · next same => simp [same]
    · next other =>
      rw [ih]
      simp [Ne.symm other]

theorem find_eq_none_of_notMem (absent : k ∉ keys entries) : find k entries = none :=
  not_ne_iff.mp (mt find_ne_none_iff.mp absent)

theorem find_append (k : κ) (entries rest : List (κ × ν)) :
    find k (entries ++ rest) = (find k entries).or (find k rest) := by
  induction entries with
  | nil => simp [find]
  | cons _ _ ih =>
    rw [cons_append, find, find]
    split
    · rfl
    · exact ih

variable {value : ν}

theorem mem_of_find (found : find k entries = some value) : (k, value) ∈ entries := by
  induction entries with
  | nil => cases found
  | cons entry _ ih =>
    obtain ⟨key, stored⟩ := entry
    rw [find] at found
    split at found
    · next same =>
      cases found
      rw [same]
      exact mem_cons_self
    · exact mem_cons_of_mem _ (ih found)

theorem find_eq_some_iff (nodup : (keys entries).Nodup) :
    find k entries = some value ↔ (k, value) ∈ entries := by
  induction entries with
  | nil => simp [find]
  | cons _ _ ih =>
    rw [keys_cons, nodup_cons] at nodup
    rw [find, mem_cons, Prod.mk.injEq]
    split
    · next same =>
      subst same
      constructor
      · intro found
        exact .inl ⟨rfl, (Option.some.inj found).symm⟩
      · rintro (⟨_, rfl⟩ | later)
        · rfl
        · exact absurd (mem_map_of_mem later) nodup.1
    · next other =>
      rw [ih nodup.2]
      simp [Ne.symm other]

theorem eq_of_mem {one two : ν} (nodup : (keys entries).Nodup) (isOne : (k, one) ∈ entries)
    (isTwo : (k, two) ∈ entries) : one = two := by
  have found := (find_eq_some_iff nodup).mpr isOne
  rw [(find_eq_some_iff nodup).mpr isTwo] at found
  exact (Option.some.inj found).symm

theorem find_upsert (fresh : ν) (k : κ) (f : ν → ν) (entries : List (κ × ν)) (other : κ) :
    find other (upsert fresh k f entries) =
      if k = other then some (f ((find k entries).getD fresh)) else find other entries := by
  induction entries with
  | nil =>
    rfl
  | cons entry _ ih =>
    obtain ⟨key, _⟩ := entry
    by_cases same : key = k
    · subst same
      rw [upsert, if_pos rfl, find, find, find, if_pos rfl]
      split <;> rfl
    · rw [upsert, if_neg same, find, find, find, if_neg same, ih]
      by_cases isOther : key = other
      · subst isOther
        rw [if_pos rfl, if_pos rfl, if_neg (Ne.symm same)]
      · rw [if_neg isOther, if_neg isOther]

theorem keys_upsert (fresh : ν) (k : κ) (f : ν → ν) (entries : List (κ × ν)) :
    keys (upsert fresh k f entries) =
      if k ∈ keys entries then keys entries else keys entries ++ [k] := by
  induction entries with
  | nil => rfl
  | cons entry rest ih =>
    obtain ⟨key, _⟩ := entry
    by_cases same : key = k
    · subst same
      simp [upsert]
    · rw [upsert, if_neg same, keys_cons, ih, keys_cons]
      by_cases later : k ∈ keys rest
      · rw [if_pos later, if_pos (mem_cons_of_mem key later)]
      · have absent : k ∉ key :: keys rest := by
          rw [mem_cons, not_or]
          exact ⟨Ne.symm same, later⟩
        rw [if_neg later, if_neg absent, cons_append]

variable {fresh : ν} {f : ν → ν}

theorem mem_keys_upsert {k other : κ} :
    other ∈ keys (upsert fresh k f entries) ↔ other = k ∨ other ∈ keys entries := by
  rw [keys_upsert]
  split
  · next known =>
    constructor
    · exact .inr
    · rintro (rfl | member)
      · exact known
      · exact member
  · rw [mem_append, mem_singleton, or_comm]

theorem nodup_keys_upsert (nodup : (keys entries).Nodup) :
    (keys (upsert fresh k f entries)).Nodup := by
  rw [keys_upsert]
  split
  · exact nodup
  · next absent =>
    rw [nodup_append]
    refine ⟨nodup, nodup_singleton k, ?_⟩
    rintro a member b single rfl
    rw [mem_singleton.mp single] at member
    exact absent member

theorem upsert_append_of_notMem {rest : List (κ × ν)} (absent : k ∉ keys entries) :
    upsert fresh k f (entries ++ rest) = entries ++ upsert fresh k f rest := by
  induction entries with
  | nil => rfl
  | cons _ _ ih =>
    rw [keys_cons, mem_cons, not_or] at absent
    rw [cons_append, upsert, if_neg (Ne.symm absent.1), ih absent.2, cons_append]

theorem upsert_eq_map (nodup : (keys entries).Nodup) (present : k ∈ keys entries) :
    upsert fresh k f entries =
      entries.map fun entry => if entry.1 = k then (entry.1, f entry.2) else entry := by
  induction entries with
  | nil => cases present
  | cons entry rest ih =>
    obtain ⟨key, _⟩ := entry
    rw [keys_cons, nodup_cons] at nodup
    rw [upsert, map_cons]
    by_cases here : key = k
    · subst here
      have others : rest.map (fun entry => if entry.1 = key then (entry.1, f entry.2) else entry) =
          rest := by
        calc rest.map (fun entry => if entry.1 = key then (entry.1, f entry.2) else entry)
            = rest.map id := by
              apply map_congr_left
              intro entry member
              have apart : entry.1 ≠ key := by
                intro same
                rw [← same] at nodup
                exact nodup.1 (mem_map.mpr ⟨entry, member, rfl⟩)
              exact if_neg apart
          _ = rest := map_id rest
      rw [if_pos rfl, if_pos rfl, others]
    · rw [if_neg here, if_neg here, ih nodup.2 ((mem_cons.mp present).resolve_left (Ne.symm here))]

theorem upsert_id (present : k ∈ keys entries) : upsert fresh k id entries = entries := by
  induction entries with
  | nil => cases present
  | cons entry _ ih =>
    obtain ⟨key, _⟩ := entry
    rw [upsert]
    by_cases here : key = k
    · rw [if_pos here]
      rfl
    · rw [if_neg here, ih ((mem_cons.mp present).resolve_left (Ne.symm here))]

theorem upsert_upsert (fresh : ν) (k : κ) (f g : ν → ν) (entries : List (κ × ν)) :
    upsert fresh k g (upsert fresh k f entries) = upsert fresh k (fun value => g (f value))
      entries := by
  induction entries with
  | nil => simp [upsert]
  | cons entry _ ih =>
    obtain ⟨key, _⟩ := entry
    by_cases here : key = k
    · simp [upsert, here]
    · simp [upsert, here, ih]

theorem mem_upsert {k key : κ} (nodup : (keys entries).Nodup) :
    (key, value) ∈ upsert fresh k f entries ↔ (key ≠ k ∧ (key, value) ∈ entries) ∨
        (key = k ∧ value = f ((find k entries).getD fresh)) := by
  rw [← find_eq_some_iff (nodup_keys_upsert nodup), find_upsert, ← find_eq_some_iff nodup]
  by_cases here : k = key
  · simp [here, eq_comm]
  · simp [here, Ne.symm here]

theorem forall_mem_upsert (property : ν → Prop) (all : ∀ entry ∈ entries, property entry.2)
    (kept : ∀ value, property value → property (f value)) (entered : property (f fresh)) :
    ∀ entry ∈ upsert fresh k f entries, property entry.2 := by
  induction entries with
  | nil =>
    intro _ member
    rw [upsert, mem_singleton] at member
    rw [member]
    exact entered
  | cons first _ ih =>
    obtain ⟨_, value⟩ := first
    obtain ⟨here, later⟩ := forall_mem_cons.mp all
    rw [upsert]
    split
    · exact forall_mem_cons.mpr ⟨kept value here, later⟩
    · exact forall_mem_cons.mpr ⟨here, ih later⟩

theorem find_remove (k key : κ) (entries : List (κ × ν)) :
    find key (remove k entries) = if key = k then none else find key entries := by
  induction entries with
  | nil => simp [remove, find]
  | cons entry _ ih =>
    obtain ⟨first, _⟩ := entry
    rw [remove] at ih ⊢
    by_cases erased : first = k
    · rw [filter_cons_of_neg (by simp [erased]), ih, find]
      by_cases here : key = k
      · simp [here]
      · simp [erased, Ne.symm here]
    · rw [filter_cons_of_pos (by simp [erased]), find, find, ih]
      by_cases here : first = key
      · simp [here ▸ erased]
      · simp [here]

theorem mem_keys_remove {k key : κ} :
    key ∈ keys (remove k entries) ↔ key ≠ k ∧ key ∈ keys entries := by
  rw [← find_ne_none_iff, ← find_ne_none_iff, find_remove]
  by_cases here : key = k
  · simp [here]
  · simp [here]

theorem nodup_keys_remove (nodup : (keys entries).Nodup) : (keys (remove k entries)).Nodup :=
  nodup.sublist (filter_sublist.map Prod.fst)

theorem sum_by_key {ι : Type} (key : ι → κ) (g : ι → Nat) (items : List ι) {names : List κ}
    (nodup : names.Nodup) (known : ∀ item ∈ items, key item ∈ names) :
    (items.map g).sum =
      (names.map fun k => ((items.filter fun item => key item = k).map g).sum).sum := by
  induction items with
  | nil => simp
  | cons item rest ih =>
    have later := ih fun other member => known other (by simp [member])
    have split : (names.map fun k =>
          (((item :: rest).filter fun item => key item = k).map g).sum) =
        names.map fun k => (if k = key item then g item else 0) +
          ((rest.filter fun item => key item = k).map g).sum := by
      apply map_congr_left
      intro k _
      by_cases here : key item = k
      · simp [here]
      · simp [here, Ne.symm here]
    have single : (names.map fun k => if k = key item then g item else 0).sum = g item := by
      rw [← sum_toFinset _ nodup, Finset.sum_ite_eq',
        if_pos (mem_toFinset.mpr (known item (by simp)))]
    rw [map_cons, sum_cons, later, split, sum_map_add, single]

section Fold

variable {ι : Type} (key : ι → κ) (fresh : ι → ν) (f : ι → ν → ν) {items : List ι}

theorem mem_keys_foldl_upsert {k : κ} :
    k ∈ keys (items.foldl (fun map item => upsert (fresh item) (key item) (f item) map) entries) ↔
      k ∈ items.map key ∨ k ∈ keys entries := by
  induction items generalizing entries with
  | nil => simp
  | cons _ _ ih =>
    rw [foldl_cons, ih, mem_keys_upsert, map_cons, mem_cons]
    tauto

theorem nodup_keys_foldl_upsert (nodup : (keys entries).Nodup) :
    (keys (items.foldl (fun map item => upsert (fresh item) (key item) (f item) map)
      entries)).Nodup := by
  induction items generalizing entries with
  | nil => exact nodup
  | cons _ _ ih => exact ih (nodup_keys_upsert nodup)

omit [DecidableEq κ] in
theorem nodup_flatMap_pair {list : ι → List ν} (apart : (items.map key).Nodup)
    (nodup : ∀ item, (list item).Nodup) :
    (items.flatMap fun item => (list item).map fun value => (key item, value)).Nodup := by
  refine nodup_flatMap.mpr ⟨?_, ?_⟩
  · intro item _
    exact (nodup item).map fun _ _ same => congrArg Prod.snd same
  · refine (pairwise_map.mp apart).imp ?_
    intro _ _ apart _ inFirst inSecond
    obtain ⟨_, _, rfl⟩ := mem_map.mp inFirst
    obtain ⟨_, _, same⟩ := mem_map.mp inSecond
    exact apart (congrArg Prod.fst same).symm

end Fold

end AssocList
