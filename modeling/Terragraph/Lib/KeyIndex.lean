/-
Module: Terragraph.Lib.KeyIndex
Purpose: A list of records with an index from keys to positions, rewriting records in place through
  an index that is re-keyed while it is used, and the elements of a finite set in ascending order.
Trusted boundary: none
Main exports: KeyIndex.Sound, Rekey.Table, Rekey.rekeyAll_exact, Ascending.pairwise_listing
-/
import Mathlib

namespace KeyIndex

open List Function Option

variable {α κ : Type*} (key : α → κ)

def Sound (records : List α) (index : κ → Option Nat) : Prop :=
  ∀ k i, index k = some i → ∃ r, records[i]? = some r ∧ key r = k

def Exact (records : List α) (index : κ → Option Nat) : Prop :=
  ∀ k i, index k = some i ↔ ∃ r, records[i]? = some r ∧ key r = k

def find (records : List α) (index : κ → Option Nat) (k : κ) : Option α :=
  (index k).bind fun i => records[i]?

def refresh [DecidableEq κ] (records : List α) (index : κ → Option Nat) : κ → Option Nat :=
  records.zipIdx.foldl (fun index entry => update index (key entry.1) (some entry.2)) index

variable {key} {records : List α} {index : κ → Option Nat}

theorem Exact.sound (exact : Exact key records index) : Sound key records index :=
  fun k i => (exact k i).mp

variable {k : κ} {i : Nat} {r : α}

theorem Sound.key_eq (sound : Sound key records index) (stored : index k = some i)
    (present : records[i]? = some r) : key r = k := by
  obtain ⟨_, presentOther, keyEq⟩ := sound k i stored
  cases present.symm.trans presentOther
  exact keyEq

theorem Exact.index_eq (exact : Exact key records index) (present : records[i]? = some r) :
    index (key r) = some i :=
  (exact (key r) i).mpr ⟨r, present, rfl⟩

theorem Exact.position_unique (exact : Exact key records index) {i j : Nat} {r t : α}
    (first : records[i]? = some r) (second : records[j]? = some t) (same : key r = key t) :
    i = j := by
  have left := exact.index_eq first
  rw [same, exact.index_eq second] at left
  exact (some.inj left).symm

theorem Sound.congr_keys {records' : List α} (sound : Sound key records index)
    (same : records'.map key = records.map key) : Sound key records' index := by
  intro k i stored
  obtain ⟨r, present, keyEq⟩ := sound k i stored
  have atI : (records'.map key)[i]? = some k := by
    rw [same, getElem?_map, present, ← keyEq]
    rfl
  rw [getElem?_map] at atI
  obtain ⟨t, presentT, keyT⟩ := map_eq_some_iff.mp atI
  exact ⟨t, presentT, keyT⟩

theorem Exact.congr_keys {records' : List α} (exact : Exact key records index)
    (same : records'.map key = records.map key) : Exact key records' index := by
  intro k i
  refine ⟨exact.sound.congr_keys same k i, ?_⟩
  intro ⟨r, present, keyEq⟩
  have atI : (records.map key)[i]? = some k := by
    rw [← same, getElem?_map, present, ← keyEq]
    rfl
  rw [getElem?_map] at atI
  obtain ⟨t, presentT, keyT⟩ := map_eq_some_iff.mp atI
  exact (exact k i).mpr ⟨t, presentT, keyT⟩

theorem Exact.unique {index' : κ → Option Nat} (exact : Exact key records index)
    (exact' : Exact key records index') : index = index' := by
  funext k
  apply ext
  intro i
  exact (exact k i).trans (exact' k i).symm

theorem Exact.nodup (exact : Exact key records index) : (records.map key).Nodup := by
  rw [nodup_iff_injective_getElem]
  intro i j same
  obtain ⟨i, iLt⟩ := i
  obtain ⟨j, jLt⟩ := j
  simp only [length_map] at iLt jLt
  simp only [getElem_map] at same
  exact Fin.ext (exact.position_unique (getElem?_eq_getElem iLt) (getElem?_eq_getElem jLt) same)

theorem Sound.exact (sound : Sound key records index) (nodup : (records.map key).Nodup)
    (known : ∀ r ∈ records, index (key r) ≠ none) : Exact key records index := by
  intro k i
  refine ⟨sound k i, ?_⟩
  rintro ⟨r, present, rfl⟩
  obtain ⟨j, stored⟩ := ne_none_iff_exists'.mp (known r (mem_of_getElem? present))
  obtain ⟨t, presentT, keyT⟩ := sound _ j stored
  have same : (records.map key)[i]? = (records.map key)[j]? := by
    simp [present, presentT, keyT]
  have iLt : i < (records.map key).length := by
    simpa using (List.getElem?_eq_some_iff.mp present).1
  rw [stored, (getElem?_inj iLt nodup).mp same]

theorem Exact.find_eq_some_iff (exact : Exact key records index) :
    find records index k = some r ↔ r ∈ records ∧ key r = k := by
  rw [find, bind_eq_some_iff]
  constructor
  · rintro ⟨i, stored, present⟩
    obtain ⟨t, presentT, keyT⟩ := (exact k i).mp stored
    rw [present] at presentT
    cases presentT
    exact ⟨mem_of_getElem? present, keyT⟩
  · rintro ⟨member, rfl⟩
    obtain ⟨i, present⟩ := getElem?_of_mem member
    exact ⟨i, exact.index_eq present, present⟩

theorem Sound.find_key (sound : Sound key records index) (found : find records index k = some r) :
    r ∈ records ∧ key r = k := by
  obtain ⟨i, stored, present⟩ := bind_eq_some_iff.mp found
  obtain ⟨t, presentT, keyT⟩ := sound k i stored
  rw [present] at presentT
  cases presentT
  exact ⟨mem_of_getElem? present, keyT⟩

theorem Exact.index_eq_none_iff (exact : Exact key records index) :
    index k = none ↔ ∀ r ∈ records, key r ≠ k := by
  constructor
  · rintro absent r member rfl
    obtain ⟨i, present⟩ := getElem?_of_mem member
    rw [exact.index_eq present] at absent
    cases absent
  · intro free
    cases stored : index k with
    | none => rfl
    | some i =>
      obtain ⟨r, present, keyEq⟩ := (exact k i).mp stored
      exact absurd keyEq (free r (mem_of_getElem? present))

/-! ### In-place updates -/

variable [DecidableEq κ]

variable {f : α → α}

/-- Re-keying the record under `k`: the new key is entered first and the old one erased afterwards,
so a new key equal to the old one ends up erased. -/
theorem Sound.rekey (sound : Sound key records index) {k k' : κ} (stored : index k = some i)
    (keyed : ∀ r, records[i]? = some r → key (f r) = k') :
    Sound key (records.modify i f) (update (update index k' (some i)) k none) := by
  obtain ⟨r, present, keyEq⟩ := sound k i stored
  intro c j entry
  by_cases old : c = k
  · simp [old] at entry
  rw [update_of_ne old] at entry
  by_cases new : c = k'
  · subst new
    simp only [update_self, some.injEq] at entry
    subst entry
    exact ⟨f r, by simp [present], keyed r present⟩
  · rw [update_of_ne new] at entry
    obtain ⟨t, presentT, keyT⟩ := sound c j entry
    have apart : i ≠ j := by
      rintro rfl
      rw [present] at presentT
      cases presentT
      exact old (keyT.symm.trans keyEq)
    exact ⟨t, by simp [presentT, apart], keyT⟩

theorem Exact.rekey (exact : Exact key records index) {k k' : κ} (stored : index k = some i)
    (keyed : ∀ r, records[i]? = some r → key (f r) = k') (fresh : ∀ r ∈ records, key r ≠ k') :
    Exact key (records.modify i f) (update (update index k' (some i)) k none) := by
  intro c j
  refine ⟨exact.sound.rekey stored keyed c j, ?_⟩
  rintro ⟨r, present, rfl⟩
  obtain ⟨u, presentU, keyU⟩ := (exact k i).mp stored
  rw [getElem?_modify] at present
  cases original : records[j]? with
  | none => simp [original] at present
  | some t =>
    by_cases same : i = j
    · subst same
      simp [original] at present
      have keyR : key r = k' := by rw [← present]; exact keyed t original
      have moved : k' ≠ k := by
        rintro rfl
        exact fresh u (mem_of_getElem? presentU) keyU
      rw [keyR, update_of_ne moved, update_self]
    · simp [original, same] at present
      subst present
      have notNew : key t ≠ k' := fresh t (mem_of_getElem? original)
      have notOld : key t ≠ k := by
        intro clash
        exact same (exact.position_unique presentU original (keyU.trans clash.symm))
      rw [update_of_ne notOld, update_of_ne notNew]
      exact exact.index_eq original

/-! ### Refreshing after the list was resized -/

theorem refresh_concat (key : α → κ) (front : List α) (last : α) (index : κ → Option Nat) :
    refresh key (front ++ [last]) index =
      update (refresh key front index) (key last) (some front.length) := by
  simp [refresh, zipIdx_append]

/-- What a refresh stores under a key: a position that carries it, or else the old entry. -/
theorem refresh_cases (key : α → κ) (records : List α) (index : κ → Option Nat) (k : κ) :
    (∃ i r, refresh key records index k = some i ∧ records[i]? = some r ∧ key r = k) ∨
      ((∀ r ∈ records, key r ≠ k) ∧ refresh key records index k = index k) := by
  -- Induction from the right end, since the last record with a key wins.
  induction records using reverseRecOn with
  | nil => exact .inr ⟨by simp, rfl⟩
  | append_singleton front last ih =>
    rw [refresh_concat]
    by_cases hit : k = key last
    · subst hit
      exact .inl ⟨front.length, last, by simp, by simp, rfl⟩
    · rw [update_of_ne hit]
      rcases ih with ⟨i, r, stored, present, keyEq⟩ | ⟨free, kept⟩
      · have inFront : i < front.length := (List.getElem?_eq_some_iff.mp present).1
        exact .inl ⟨i, r, stored, by rw [getElem?_append_left inFront, present], keyEq⟩
      · refine .inr ⟨?_, kept⟩
        rw [forall_mem_append, forall_mem_singleton]
        exact ⟨free, Ne.symm hit⟩

theorem refresh_ne_none (member : r ∈ records) : refresh key records index (key r) ≠ none := by
  rcases refresh_cases key records index (key r) with ⟨i, t, stored, -, -⟩ | ⟨free, -⟩
  · simp [stored]
  · exact absurd rfl (free r member)

theorem refresh_sound (noStale : ∀ k i, index k = some i → ∃ r ∈ records, key r = k) :
    Sound key records (refresh key records index) := by
  intro k i stored
  rcases refresh_cases key records index k with ⟨j, r, stored', present, keyEq⟩ | ⟨free, kept⟩
  · rw [stored'] at stored
    cases stored
    exact ⟨r, present, keyEq⟩
  · rw [kept] at stored
    obtain ⟨r, member, keyEq⟩ := noStale k i stored
    exact absurd keyEq (free r member)

theorem refresh_exact (nodup : (records.map key).Nodup)
    (noStale : ∀ k i, index k = some i → ∃ r ∈ records, key r = k) :
    Exact key records (refresh key records index) :=
  (refresh_sound noStale).exact nodup fun _ member => refresh_ne_none member

theorem Sound.push (sound : Sound key records index) (r : α) :
    Sound key (records ++ [r]) (refresh key (records ++ [r]) index) := by
  apply refresh_sound
  intro k i stored
  obtain ⟨t, present, keyEq⟩ := sound k i stored
  exact ⟨t, by simp [mem_of_getElem? present], keyEq⟩

section

variable (exact : Exact key records index)
include exact

theorem Exact.push (fresh : index (key r) = none) :
    Exact key (records ++ [r]) (refresh key (records ++ [r]) index) := by
  have free := exact.index_eq_none_iff.mp fresh
  refine (exact.sound.push r).exact ?_ fun _ member => refresh_ne_none member
  rw [map_append, nodup_append]
  refine ⟨exact.nodup, by simp, ?_⟩
  intro k inOld c inNew clash
  obtain ⟨t, member, rfl⟩ := mem_map.mp inOld
  simp only [map_cons, map_nil, mem_singleton] at inNew
  exact free t member (clash.trans inNew)

theorem Exact.snoc (fresh : index (key r) = none) :
    Exact key (records ++ [r]) (update index (key r) (some records.length)) := by
  have free := exact.index_eq_none_iff.mp fresh
  intro k i
  by_cases new : k = key r
  · subst new
    rw [update_self]
    constructor
    · intro stored
      cases stored
      exact ⟨r, by simp, rfl⟩
    · intro ⟨t, present, keyEq⟩
      rcases mem_append.mp (mem_of_getElem? present) with old | _
      · exact absurd keyEq (free t old)
      · by_cases inside : i < records.length
        · rw [getElem?_append_left inside] at present
          exact absurd keyEq (free t (mem_of_getElem? present))
        · have bound := (List.getElem?_eq_some_iff.mp present).1
          simp only [length_append, length_singleton] at bound
          rw [show i = records.length by omega]
  · rw [update_of_ne new, exact k i]
    constructor
    · intro ⟨t, present, keyEq⟩
      have inside := (List.getElem?_eq_some_iff.mp present).1
      exact ⟨t, by rw [getElem?_append_left inside, present], keyEq⟩
    · intro ⟨t, present, keyEq⟩
      by_cases inside : i < records.length
      · rw [getElem?_append_left inside] at present
        exact ⟨t, present, keyEq⟩
      · have bound := (List.getElem?_eq_some_iff.mp present).1
        simp only [length_append, length_singleton] at bound
        rw [show i = records.length by omega] at present
        simp only [getElem?_concat_length, some.injEq] at present
        rw [present] at new
        exact absurd keyEq.symm new

theorem Exact.modify_eq_map (stored : index k = some i) (f : α → α) :
    records.modify i f = records.map fun r => if key r = k then f r else r := by
  apply ext_getElem?
  intro j
  rw [getElem?_modify, getElem?_map]
  cases present : records[j]? with
  | none => rfl
  | some r =>
    have here : i = j ↔ key r = k := by
      constructor
      · rintro rfl
        exact exact.sound.key_eq stored present
      · intro same
        have position := exact.index_eq present
        rw [same, stored] at position
        exact some.inj position
    simp only [here]
    rfl

end

omit [DecidableEq κ] in
theorem mem_modify_iff : r ∈ records.modify i f ↔
      (∃ j, j ≠ i ∧ records[j]? = some r) ∨ ∃ t, records[i]? = some t ∧ f t = r := by
  rw [mem_iff_getElem?]
  constructor
  · intro ⟨j, present⟩
    rw [getElem?_modify] at present
    obtain ⟨t, presentT, isR⟩ := map_eq_some_iff.mp present
    by_cases here : i = j
    · subst here
      exact .inr ⟨t, presentT, by simpa using isR⟩
    · rw [if_neg here] at isR
      exact .inl ⟨j, fun same => here same.symm, by rw [presentT, isR]⟩
  · intro member
    rcases member with ⟨j, apart, present⟩ | ⟨t, present, isR⟩
    · exact ⟨j, by simp [present, apart.symm]⟩
    · exact ⟨i, by simp [present, isR]⟩

omit [DecidableEq κ] in
theorem forall_mem_modify {P : α → Prop} (holds : ∀ r ∈ records, P r)
    (modified : ∀ t, records[i]? = some t → P (f t)) : ∀ r ∈ records.modify i f, P r := by
  intro r member
  rcases mem_modify_iff.mp member with ⟨j, _, presentJ⟩ | ⟨t, present, rfl⟩
  · exact holds r (mem_of_getElem? presentJ)
  · exact modified t present

omit [DecidableEq κ] in
theorem Exact.mem_modify_iff (exact : Exact key records index) {t : α}
    (present : records[i]? = some t) :
    r ∈ records.modify i f ↔ r = f t ∨ (r ∈ records ∧ key r ≠ key t) := by
  rw [KeyIndex.mem_modify_iff]
  constructor
  · rintro (⟨j, apart, presentJ⟩ | ⟨_, presentOld, rfl⟩)
    · refine .inr ⟨mem_of_getElem? presentJ, fun same => apart ?_⟩
      exact exact.position_unique presentJ present same
    · cases present.symm.trans presentOld
      exact .inl rfl
  · rintro (rfl | ⟨member, apart⟩)
    · exact .inr ⟨t, present, rfl⟩
    · obtain ⟨j, presentJ⟩ := getElem?_of_mem member
      refine .inl ⟨j, ?_, presentJ⟩
      rintro rfl
      cases present.symm.trans presentJ
      exact apart rfl

theorem Sound.eraseIdx (sound : Sound key records index) (stored : index k = some i) :
    Sound key (records.eraseIdx i) (refresh key (records.eraseIdx i) (update index k none)) := by
  obtain ⟨r, present, keyEq⟩ := sound k i stored
  apply refresh_sound
  intro c j entry
  by_cases erased : c = k
  · simp [erased] at entry
  rw [update_of_ne erased] at entry
  obtain ⟨t, presentT, keyT⟩ := sound c j entry
  refine ⟨t, mem_eraseIdx_iff_getElem?.mpr ⟨_, ?_, presentT⟩, keyT⟩
  rintro rfl
  rw [present] at presentT
  cases presentT
  exact erased (keyT.symm.trans keyEq)

theorem Exact.eraseIdx (exact : Exact key records index) (stored : index k = some i) :
    Exact key (records.eraseIdx i) (refresh key (records.eraseIdx i) (update index k none)) := by
  refine (exact.sound.eraseIdx stored).exact ?_ fun _ member => refresh_ne_none member
  exact exact.nodup.sublist ((eraseIdx_sublist _ _).map key)

omit [DecidableEq κ] in
theorem Exact.mem_eraseIdx_iff (exact : Exact key records index) (stored : index k = some i) :
    r ∈ records.eraseIdx i ↔ r ∈ records ∧ key r ≠ k := by
  obtain ⟨t, presentT, keyT⟩ := (exact k i).mp stored
  rw [mem_eraseIdx_iff_getElem?]
  constructor
  · rintro ⟨j, apart, present⟩
    refine ⟨mem_of_getElem? present, fun clash => apart ?_⟩
    exact exact.position_unique present presentT (clash.trans keyT.symm)
  · rintro ⟨member, other⟩
    obtain ⟨j, present⟩ := getElem?_of_mem member
    refine ⟨j, ?_, present⟩
    rintro rfl
    rw [present] at presentT
    cases presentT
    exact other keyT

end KeyIndex

namespace Rekey

open List Function Option

structure Table (α κ : Type) where
  records : List α
  index : κ → Option Nat

variable {α κ : Type} [DecidableEq κ] (key : α → κ) (f : α → α)

/-- One round: rewrite the record found under the key `k`. -/
def rekey (t : Table α κ) (k : κ) : Table α κ :=
  match t.index k with
  | none => t
  | some i =>
    match t.records[i]? with
    | none => t
    | some old =>
      { records := t.records.modify i f
        index := update (update t.index (key (f old)) (some i)) k none }

def rekeyAll (t : Table α κ) (keys : List κ) : Table α κ :=
  keys.foldl (rekey key f) t

variable {key f} {t : Table α κ}

variable {i : Nat}

variable (key f) in
theorem rekey_of_found {k : κ} {old : α} (stored : t.index k = some i)
    (present : t.records[i]? = some old) :
    rekey key f t k = { records := t.records.modify i f
                        index := update
                          (update t.index (key (f old)) (some i)) k none } := by
  simp [rekey, stored, present]

theorem rekey_sound (sound : KeyIndex.Sound key t.records t.index) (k : κ) :
    KeyIndex.Sound key (rekey key f t k).records (rekey key f t k).index := by
  cases stored : t.index k with
  | none => simpa [rekey, stored] using sound
  | some i =>
    obtain ⟨_, present, _⟩ := sound k i stored
    rw [rekey_of_found key f stored present]
    apply sound.rekey stored
    intro r presentR
    cases present.symm.trans presentR
    rfl

theorem rekeyAll_sound (sound : KeyIndex.Sound key t.records t.index) (keys : List κ) :
    KeyIndex.Sound key (rekeyAll key f t keys).records (rekeyAll key f t keys).index := by
  induction keys generalizing t with
  | nil => exact sound
  | cons k _ ih => exact ih (rekey_sound sound k)

/-! ### Positions that no key leads to -/

def Lost (t : Table α κ) (i : Nat) : Prop :=
  ∀ k, t.index k ≠ some i

variable (key f) in
theorem Lost.rekey (lost : Lost t i) (k : κ) :
    Lost (rekey key f t k) i ∧ (Rekey.rekey key f t k).records[i]? = t.records[i]? := by
  unfold Rekey.rekey
  split
  · exact ⟨lost, rfl⟩
  · next j stored =>
    have apart : j ≠ i := fun same => lost k (by rw [stored, same])
    split
    · exact ⟨lost, rfl⟩
    · next old _ =>
      refine ⟨?_, by simp [apart]⟩
      intro c entry
      dsimp only at entry
      by_cases erased : c = k
      · simp [erased] at entry
      · rw [update_of_ne erased] at entry
        by_cases entered : c = key (f old)
        · rw [entered, update_self] at entry
          exact apart (some.inj entry)
        · rw [update_of_ne entered] at entry
          exact lost c entry

variable (key f) in
theorem Lost.rekeyAll (lost : Lost t i) (keys : List κ) : Lost (rekeyAll key f t keys) i ∧
      (Rekey.rekeyAll key f t keys).records[i]? = t.records[i]? := by
  induction keys generalizing t with
  | nil => exact ⟨lost, rfl⟩
  | cons k _ ih =>
    obtain ⟨stillLost, unchanged⟩ := lost.rekey key f k
    obtain ⟨lostAtEnd, unchangedLater⟩ := ih stillLost
    exact ⟨lostAtEnd, unchangedLater.trans unchanged⟩

omit [DecidableEq κ] in
theorem lost_of_sound (sound : KeyIndex.Sound key t.records t.index) {r : α}
    (present : t.records[i]? = some r) (missing : t.index (key r) ≠ some i) : Lost t i := by
  intro k entry
  obtain ⟨_, presentOther, keyEq⟩ := sound k i entry
  cases present.symm.trans presentOther
  exact missing (by rw [keyEq]; exact entry)

/-! ### Rounds that find their own record -/

def Present (t : Table α κ) (targets : List (Nat × α)) : Prop :=
  ∀ target ∈ targets, t.records[target.1]? = some target.2

def keysOf (key : α → κ) (targets : List (Nat × α)) : List κ :=
  targets.map fun target => key target.2

variable (key f) in
/-- Every round finds the record it was meant for. -/
def Resolves : Table α κ → List (Nat × α) → Prop
  | _, [] => True
  | t, target :: targets =>
    t.index (key target.2) = some target.1 ∧
      Resolves (rekey key f t (key target.2)) targets

variable {targets : List (Nat × α)}

theorem Present.rekey {target : Nat × α} (present : Present t (target :: targets))
    (distinct : ((target :: targets).map Prod.fst).Nodup)
    (stored : t.index (key target.2) = some target.1) :
    Present (rekey key f t (key target.2)) targets := by
  intro other member
  have apart : target.1 ≠ other.1 := by
    rw [map_cons, nodup_cons] at distinct
    intro same
    exact distinct.1 (same ▸ mem_map_of_mem member)
  rw [rekey_of_found key f stored (present target (by simp))]
  simp [apart, present other (by simp [member])]

theorem Resolves.records (resolves : Resolves key f t targets) (present : Present t targets)
    (distinct : (targets.map Prod.fst).Nodup) (i : Nat) :
    (rekeyAll key f t (keysOf key targets)).records[i]? =
      if i ∈ targets.map Prod.fst then t.records[i]?.map f else t.records[i]? := by
  induction targets generalizing t with
  | nil => simp [rekeyAll, keysOf]
  | cons target targets ih =>
    obtain ⟨stored, rest⟩ := resolves
    have later := ih rest (present.rekey distinct stored) (nodup_cons.mp distinct).2
    have unfolded : rekeyAll key f t (keysOf key (target :: targets)) =
        rekeyAll key f (rekey key f t (key target.2)) (keysOf key targets) := rfl
    rw [unfolded, later, rekey_of_found key f stored (present target (by simp))]
    rw [map_cons, nodup_cons] at distinct
    by_cases here : i = target.1
    · subst here
      simp [distinct.1]
    · have there : target.1 ≠ i := fun same => here same.symm
      simp only [map_cons, mem_cons, here, false_or]
      simp [there]

section

variable (sound : KeyIndex.Sound key t.records t.index)
include sound

omit [DecidableEq κ] in
private theorem index_of_not_lost {i : Nat} {r : α}
    (present : t.records[i]? = some r) (found : ¬ Lost t i) : t.index (key r) = some i := by
  by_contra missing
  exact found (lost_of_sound sound present missing)

theorem resolves_of_changed (present : Present t targets) (distinct : (targets.map Prod.fst).Nodup)
    (changed : ∀ target ∈ targets,
      (rekeyAll key f t (keysOf key targets)).records[target.1]? ≠ some target.2) :
    Resolves key f t targets := by
  induction targets generalizing t with
  | nil => trivial
  | cons target _ ih =>
    have presentTarget := present target (by simp)
    have stored : t.index (key target.2) = some target.1 := by
      apply index_of_not_lost sound presentTarget
      intro lost
      apply changed target (by simp)
      rw [(lost.rekeyAll key f _).2, presentTarget]
    refine ⟨stored, ?_⟩
    apply ih (rekey_sound sound _) (present.rekey distinct stored) (nodup_cons.mp distinct).2
    intro other member
    exact changed other (by simp [member])

theorem Resolves.stored (present : Present t targets)
    (distinct : (targets.map Prod.fst).Nodup) (resolves : Resolves key f t targets) :
    ∀ target ∈ targets, t.index (key target.2) = some target.1 := by
  induction targets generalizing t with
  | nil => simp
  | cons _ _ ih =>
    obtain ⟨stored, rest⟩ := resolves
    have presentLater := present.rekey (f := f) distinct stored
    have later := ih (rekey_sound sound _) presentLater (nodup_cons.mp distinct).2 rest
    refine forall_mem_cons.mpr ⟨stored, fun target there => ?_⟩
    apply index_of_not_lost sound (present target (mem_cons_of_mem _ there))
    intro lost
    exact (lost.rekey key f _).1 _ (later target there)

/-- All rounds find their own record exactly when the index leads to every listed record and no
round enters a key that a later round needs. -/
theorem resolves_iff (present : Present t targets) (distinct : (targets.map Prod.fst).Nodup) :
    Resolves key f t targets ↔ (∀ target ∈ targets, t.index (key target.2) = some target.1) ∧
        targets.Pairwise fun first later => key (f first.2) ≠ key later.2 := by
  induction targets generalizing t with
  | nil => simp [Resolves]
  | cons target _ ih =>
    have distinctLater := (nodup_cons.mp distinct).2
    constructor
    · intro resolves
      have all := resolves.stored sound present distinct
      obtain ⟨stored, rest⟩ := resolves
      have presentLater := present.rekey (f := f) distinct stored
      have soundLater := rekey_sound (f := f) sound (key target.2)
      refine ⟨all, pairwise_cons.mpr ⟨?_, ((ih soundLater presentLater distinctLater).mp rest).2⟩⟩
      intro later member taken
      have entry := rest.stored soundLater presentLater distinctLater later member
      rw [rekey_of_found key f stored (present target (by simp))] at entry
      have apart : target.1 ≠ later.1 := by
        rw [map_cons, nodup_cons] at distinct
        intro same
        exact distinct.1 (same ▸ mem_map_of_mem member)
      dsimp only at entry
      by_cases erased : key later.2 = key target.2
      · simp [erased] at entry
      · rw [update_of_ne erased, ← taken, update_self] at entry
        exact apart (some.inj entry)
    · intro ⟨all, free⟩
      have stored := all target (by simp)
      refine ⟨stored, ?_⟩
      rw [ih (rekey_sound sound _) (present.rekey distinct stored) distinctLater]
      obtain ⟨freeHere, freeLater⟩ := pairwise_cons.mp free
      refine ⟨?_, freeLater⟩
      intro later member
      have entry := all later (by simp [member])
      rw [rekey_of_found key f stored (present target (by simp))]
      dsimp only
      have notErased : key later.2 ≠ key target.2 := by
        intro same
        rw [same, stored] at entry
        rw [map_cons, nodup_cons] at distinct
        apply distinct.1
        rw [some.inj entry]
        exact mem_map_of_mem member
      rw [update_of_ne notErased, update_of_ne (freeHere later member).symm]
      exact entry

end

/-! ### Where the new keys lead -/

private theorem key_kept {targets : List (Nat × α)} {i : Nat} {r : α}
    (sound : KeyIndex.Sound key t.records t.index) (present : Present t targets)
    (distinct : (targets.map Prod.fst).Nodup) (resolves : Resolves key f t targets)
    (outside : i ∉ targets.map Prod.fst) (presentR : t.records[i]? = some r)
    (reached : ¬ Lost (rekeyAll key f t (keysOf key targets)) i) :
    ∀ target ∈ targets, key (f target.2) ≠ key r := by
  induction targets generalizing t with
  | nil => simp
  | cons first _ ih =>
    obtain ⟨stored, rest⟩ := resolves
    rw [map_cons, mem_cons, not_or] at outside
    have next := rekey_of_found key f stored (present first (by simp))
    have presentNext : (rekey key f t (key first.2)).records[i]? = some r := by
      rw [next]
      simp [Ne.symm outside.1, presentR]
    have soundNext := rekey_sound (f := f) sound (key first.2)
    intro target member
    rcases mem_cons.mp member with here | there
    · -- the first round would redirect the key of `r` to its own position
      intro taken
      rw [here] at taken
      have redirected : (rekey key f t (key first.2)).index (key r) ≠ some i := by
        rw [next, ← taken]
        dsimp only
        by_cases erased : key (f first.2) = key first.2
        · rw [erased, update_self]
          simp
        · rw [update_of_ne erased, update_self]
          intro same
          exact outside.1 (some.inj same).symm
      have lost := lost_of_sound soundNext presentNext redirected
      exact reached (lost.rekeyAll key f _).1
    · exact ih soundNext (present.rekey distinct stored)
        (nodup_cons.mp distinct).2 rest outside.2 presentNext reached target there

theorem Resolves.index_untouched {c : κ} (present : Present t targets)
    (distinct : (targets.map Prod.fst).Nodup) (resolves : Resolves key f t targets)
    (untouched : ∀ target ∈ targets, c ≠ key (f target.2) ∧ c ≠ key target.2) :
    (rekeyAll key f t (keysOf key targets)).index c = t.index c := by
  induction targets generalizing t with
  | nil => rfl
  | cons first targets ih =>
    obtain ⟨stored, rest⟩ := resolves
    have later := ih (present.rekey distinct stored)
      (nodup_cons.mp distinct).2 rest fun target member =>
        untouched target (by simp [member])
    obtain ⟨notEntered, notErased⟩ := untouched first (by simp)
    have unfolded : rekeyAll key f t (keysOf key (first :: targets)) =
        rekeyAll key f (rekey key f t (key first.2)) (keysOf key targets) := rfl
    rw [unfolded, later, rekey_of_found key f stored (present first (by simp))]
    dsimp only
    rw [update_of_ne notErased, update_of_ne notEntered]

/-- The new keys then lead to the rewritten records exactly when every round changes its key and no
two rounds enter the same key. -/
theorem Resolves.index_iff (sound : KeyIndex.Sound key t.records t.index)
    (present : Present t targets) (distinct : (targets.map Prod.fst).Nodup)
    (resolves : Resolves key f t targets) :
    (∀ target ∈ targets,
      (rekeyAll key f t (keysOf key targets)).index (key (f target.2)) = some target.1) ↔
      (∀ target ∈ targets, key (f target.2) ≠ key target.2) ∧
        targets.Pairwise fun first later => key (f first.2) ≠ key (f later.2) := by
  induction targets generalizing t with
  | nil => simp
  | cons first targets ih =>
    have free := ((resolves_iff sound present distinct).mp resolves).2
    obtain ⟨stored, rest⟩ := resolves
    have next := rekey_of_found key f stored (present first (by simp))
    have soundNext := rekey_sound (f := f) sound (key first.2)
    have presentNext := present.rekey (f := f) distinct stored
    have distinctNext := (nodup_cons.mp distinct).2
    have outside : first.1 ∉ targets.map Prod.fst := by
      rw [map_cons, nodup_cons] at distinct
      exact distinct.1
    have rewritten : (rekey key f t (key first.2)).records[first.1]? = some (f first.2) := by
      rw [next]
      simp [present first (by simp)]
    have unfolded : rekeyAll key f t (keysOf key (first :: targets)) =
        rekeyAll key f (rekey key f t (key first.2)) (keysOf key targets) := rfl
    rw [unfolded]
    have later := ih soundNext presentNext distinctNext rest
    constructor
    · intro reaches
      obtain ⟨changes, apart⟩ := later.mp fun target member => reaches target (by simp [member])
      have reached : ¬ Lost (rekeyAll key f (rekey key f t (key first.2)) (keysOf key targets))
          first.1 := fun lost => lost _ (reaches first (by simp))
      have changesFirst : key (f first.2) ≠ key first.2 := by
        intro same
        apply reached
        refine (Lost.rekeyAll key f ?_ _).1
        apply lost_of_sound soundNext rewritten
        rw [next, same]
        simp
      have others := key_kept soundNext presentNext distinctNext rest outside rewritten reached
      exact ⟨forall_mem_cons.mpr ⟨changesFirst, changes⟩,
        pairwise_cons.mpr ⟨fun target member => (others target member).symm, apart⟩⟩
    · intro ⟨changes, apart⟩
      obtain ⟨apartFirst, apartLater⟩ := pairwise_cons.mp apart
      obtain ⟨freeFirst, _⟩ := pairwise_cons.mp free
      refine forall_mem_cons.mpr ⟨?_, later.mpr
        ⟨fun other otherMember => changes other (by simp [otherMember]), apartLater⟩⟩
      rw [rest.index_untouched presentNext distinctNext fun other otherMember =>
        ⟨apartFirst other otherMember, freeFirst other otherMember⟩, next]
      dsimp only
      rw [update_of_ne (changes first (by simp)), update_self]

theorem rekeyAll_exact (exact : KeyIndex.Exact key t.records t.index) (present : Present t targets)
    (distinct : (targets.map Prod.fst).Nodup)
    (fresh : ∀ target ∈ targets, ∀ r ∈ t.records, key r ≠ key (f target.2))
    (apart : targets.Pairwise fun first later => key (f first.2) ≠ key (f later.2)) :
    KeyIndex.Exact key (rekeyAll key f t (keysOf key targets)).records
      (rekeyAll key f t (keysOf key targets)).index := by
  induction targets generalizing t with
  | nil => exact exact
  | cons first _ ih =>
    have presentFirst := present first (by simp)
    have stored := exact.index_eq presentFirst
    have next := rekey_of_found key f stored presentFirst
    obtain ⟨apartFirst, apartLater⟩ := pairwise_cons.mp apart
    refine ih ?_ (present.rekey distinct stored) (nodup_cons.mp distinct).2 ?_ apartLater
    · rw [next]
      apply exact.rekey stored
      · intro r presentR
        cases presentFirst.symm.trans presentR
        rfl
      · exact fresh first (by simp)
    · intro target member
      rw [next]
      refine KeyIndex.forall_mem_modify (fresh target (by simp [member])) ?_
      intro _ presentOld
      cases presentFirst.symm.trans presentOld
      exact apartFirst target member

end Rekey

namespace Ascending

open List

variable {α : Type} [LinearOrder α]

/-- The elements of a finite set in ascending order. -/
def listing (s : Finset α) : List α :=
  Quot.liftOn s.val (insertionSort (· ≤ ·)) fun first second perm =>
    (((perm_insertionSort _ first).trans perm).trans
      (perm_insertionSort _ second).symm).eq_of_pairwise'
        (pairwise_insertionSort (· ≤ ·) first) (pairwise_insertionSort (· ≤ ·) second)

theorem listing_eq_sort (s : Finset α) : listing s = s.sort := by
  obtain ⟨elements, _⟩ := s
  induction elements using Quot.inductionOn with
  | h elements => exact (mergeSort_eq_insertionSort (· ≤ ·) elements).symm

@[simp] theorem mem_listing {s : Finset α} {a : α} : a ∈ listing s ↔ a ∈ s := by
  rw [listing_eq_sort, Finset.mem_sort]

theorem nodup_listing (s : Finset α) : (listing s).Nodup := by
  rw [listing_eq_sort]
  exact s.sort_nodup _

theorem pairwise_listing (s : Finset α) : (listing s).Pairwise (· ≤ ·) := by
  rw [listing_eq_sort]
  exact s.pairwise_sort _

end Ascending
