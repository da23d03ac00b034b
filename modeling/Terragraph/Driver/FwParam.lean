/-
Module: Terragraph.Driver.FwParam
Purpose: The packing of firmware parameters into a buffer, and how they are read back.
Trusted boundary: none
Main exports: fwParamAdd, fwParamGetAll, params_round_trip
-/
import Terragraph.Lib.Bytes

namespace Terragraph.FwParam

open Bytes List Function Nat

/-! ### Memory of a little-endian host -/

abbrev Memory := Nat → Nat

def slice (memory : Memory) (start n : Nat) : List Nat :=
  (range n).map fun i => memory (start + i)

def load (memory : Memory) (start n : Nat) : Nat := ofDigits 256 (slice memory start n)

def store (memory : Memory) (start n value : Nat) : Memory := fun i =>
  if start ≤ i ∧ i < start + n then byte value (i - start) else memory i

variable (memory : Memory)

theorem slice_store (start n value : Nat) :
    slice (store memory start n value) start n = bytes n value := by
  refine map_congr_left fun i member => ?_
  rw [store, if_pos ⟨Nat.le_add_right _ _, Nat.add_lt_add_left (mem_range.mp member) _⟩,
    Nat.add_sub_cancel_left]

theorem slice_store_of_disjoint {start n first k : Nat} (value : Nat)
    (disjoint : first + k ≤ start ∨ start + n ≤ first) :
    slice (store memory start n value) first k = slice memory first k := by
  refine map_congr_left fun i member => ?_
  have inside := mem_range.mp member
  rw [store, if_neg (by omega)]

theorem slice_add (start n k : Nat) :
    slice memory start (n + k) = slice memory start n ++ slice memory (start + n) k := by
  simp only [slice, range_add, map_append, map_map, comp_def, add_assoc]

/-! ### The parameters -/

/-- The lengths of `fw_par_cfg_tlvs`, in the order of `FW_PARAM_CONFIGURE_ALL`. -/
def fwParCfgTlvs : List Nat :=
  [4, 1, 2, 1, 1, 2, 2, 4, 4, 4, 1, 2, 1, 2, 1, 2, 1, 2, 2, 2, 2, 2, 2, 2, 2, 2, 2, 2, 2, 2, 2, 2,
    1, 1, 1, 1, 2, 2, 2, 2, 2, 1, 2, 2, 2, 2, 2, 2, 2, 1, 1, 1, 1, 2, 1, 4, 4, 4, 4, 1, 2, 1, 2, 1,
    1, 1, 1, 2, 2, 2, 4, 1, 1, 2, 1, 1, 1, 1, 2, 2, 2, 1, 1, 1, 1, 1, 1, 1, 4, 1, 1, 1, 4, 2, 1, 1,
    1, 1, 1, 1, 1, 1, 2, 1, 4, 4, 4, 4, 1, 1, 1, 2, 1, 1, 4, 4, 1, 1]

def eFwParamListLen : Nat := 118

def fwParamLen (id : Nat) : Nat := fwParCfgTlvs.getD id 0

/-- `fw_par_hnd`, with the data pointer as an offset into the buffer. -/
structure FwParHnd where
  packBufSize : Nat
  packDataPt : Nat
  packDataToDecodeLen : Nat
  packIdx : Nat

def fwParamGetHnd (memory : Memory) (bufSize : Nat) : Option FwParHnd :=
  let packBufSize := min bufSize 512
  if packBufSize = 0 then none
  else some { packBufSize, packDataPt := 2, packDataToDecodeLen := load memory 0 2, packIdx := 2 }

/-- `fw_param_add` returns whether it has added the value. -/
def fwParamAdd (hnd : FwParHnd) (memory : Memory) (id value : Nat) : Bool × FwParHnd × Memory :=
  if eFwParamListLen ≤ id then
    (false, hnd, memory)
  else if hnd.packBufSize < hnd.packIdx + fwParamLen id + 1 ∨ 4 < fwParamLen id then
    (false, hnd, memory)
  else
    (true, { hnd with
      packDataPt := hnd.packDataPt + 1 + fwParamLen id
      packIdx := hnd.packIdx + 1 + fwParamLen id },
      store (store memory hnd.packDataPt 1 id) (hnd.packDataPt + 1) (fwParamLen id) value)

/-- `fw_param_get_pack`, which returns the buffer, or null, and its length in whole words. -/
def fwParamGetPack (hnd : FwParHnd) (memory : Memory) : Option (Memory × Nat) :=
  if hnd.packBufSize < hnd.packIdx then none
  else some (store memory 0 2 hnd.packIdx, (hnd.packIdx + (4 - 1)) / 4 * 4)

/-- `fw_param_get`: the next parameter, its value, and the handle after it. -/
def fwParamGet (memory : Memory) (hnd : FwParHnd) : Option (Nat × Nat × FwParHnd) :=
  let id := load memory hnd.packDataPt 1
  if hnd.packDataToDecodeLen < hnd.packIdx + 1 then none
  else if eFwParamListLen ≤ id then none
  else if hnd.packDataToDecodeLen < fwParamLen id ∨
      hnd.packDataToDecodeLen < hnd.packIdx + 1 + fwParamLen id then none
  else some (id, load memory (hnd.packDataPt + 1) (fwParamLen id), { hnd with
    packDataPt := hnd.packDataPt + 1 + fwParamLen id
    packIdx := hnd.packIdx + 1 + fwParamLen id })

theorem fwParamGet_eq_some {memory : Memory} {hnd next : FwParHnd} {id value : Nat}
    (found : fwParamGet memory hnd = some (id, value, next)) :
    next.packDataToDecodeLen = hnd.packDataToDecodeLen ∧ hnd.packIdx < next.packIdx ∧
      next.packIdx ≤ hnd.packDataToDecodeLen := by
  simp only [fwParamGet] at found
  repeat' split at found
  all_goals cases found
  exact ⟨rfl, by simp only; omega, by simp only; omega⟩

/-- What the loops over `fw_param_get` extract. -/
def extracted (memory : Memory) (hnd : FwParHnd) : List (Nat × Nat) :=
  match _found : fwParamGet memory hnd with
  | none => []
  | some (id, value, next) => (id, value) :: extracted memory next
termination_by hnd.packDataToDecodeLen - hnd.packIdx
decreasing_by
  have progress := fwParamGet_eq_some _found
  omega

def flag (vals : Nat → Option Nat) (param : Nat × Nat) : Nat → Option Nat :=
  update vals param.1 (some param.2)

/-- `fw_param_get_all` over values that are not flagged. -/
def fwParamGetAll (memory : Memory) (len : Nat) : Option (Nat → Option Nat) := do
  let hnd ← fwParamGetHnd memory len
  return (extracted memory hnd).foldl flag fun _ => none

/-- `fw_par_get_by_id`, which stops at the first parameter with the id. -/
def fwParGetById (id : Nat) (memory : Memory) (len : Nat) : Option Nat := do
  let hnd ← fwParamGetHnd memory len
  ((extracted memory hnd).find? (·.1 = id)).map (·.2)

/-- A sequence of calls of `fw_param_add`, and those that return true. -/
def fwParamAddAll : List (Nat × Nat) → FwParHnd × Memory → List (Nat × Nat) × FwParHnd × Memory
  | [], state => ([], state)
  | (id, value) :: params, (hnd, memory) =>
    let (success, state) := fwParamAdd hnd memory id value
    let (added, state) := fwParamAddAll params state
    (if success then (id, value) :: added else added, state)

/-! ### Round trip -/

def encode (params : List (Nat × Nat)) : List Nat :=
  params.flatMap fun param => bytes 1 param.1 ++ bytes (fwParamLen param.1) param.2

def kept (param : Nat × Nat) : Nat × Nat := (param.1, param.2 % 256 ^ fwParamLen param.1)

/-- The parameters have been packed into a buffer of the size, and nothing was written after it. -/
structure Packed (size : Nat) (before : Memory) (params : List (Nat × Nat)) (hnd : FwParHnd)
    (memory : Memory) : Prop where
  bufSize : hnd.packBufSize = size
  pt : hnd.packDataPt = 2 + (encode params).length
  idx : hnd.packIdx = 2 + (encode params).length
  fits : hnd.packIdx ≤ size
  data : slice memory 2 (encode params).length = encode params
  ids : ∀ param ∈ params, param.1 < eFwParamListLen
  outside : ∀ i, size ≤ i → memory i = before i

section RoundTrip

variable {size : Nat} {before : Memory} {memory} {params : List (Nat × Nat)} {hnd : FwParHnd}

theorem Packed.add (packed : Packed size before params hnd memory) {id : Nat}
    (known : id < eFwParamListLen) (value : Nat) :
    fwParamAdd hnd memory id value = (false, hnd, memory) ∨
      ∃ hnd' memory', fwParamAdd hnd memory id value = (true, hnd', memory') ∧
        Packed size before (params ++ [(id, value)]) hnd' memory' := by
  rw [fwParamAdd, if_neg (by omega)]
  split
  · exact .inl rfl
  · have bound := packed.bufSize
    have length : (encode (params ++ [(id, value)])).length =
        (encode params).length + (1 + fwParamLen id) := by
      simp [encode, length_bytes]
    refine .inr ⟨_, _, rfl, packed.bufSize, ?_, ?_, ?_, ?_, ?_, ?_⟩
    · simp only [packed.pt]
      omega
    · simp only [packed.idx]
      omega
    · simp only
      omega
    · rw [length, slice_add, slice_add, packed.pt, slice_store_of_disjoint _ _ (by omega),
        slice_store_of_disjoint _ _ (by omega), packed.data, slice_store_of_disjoint _ _ (by omega),
        slice_store, slice_store]
      simp [encode]
    · exact forall_mem_append.mpr ⟨packed.ids, forall_mem_singleton.mpr known⟩
    · intro i outside
      have pt := packed.pt
      have idx := packed.idx
      rw [store, if_neg (by omega), store, if_neg (by omega)]
      exact packed.outside i outside

theorem Packed.addAll (packed : Packed size before params hnd memory) {calls : List (Nat × Nat)}
    (known : ∀ call ∈ calls, call.1 < eFwParamListLen) :
    Packed size before (params ++ (fwParamAddAll calls (hnd, memory)).1)
      (fwParamAddAll calls (hnd, memory)).2.1 (fwParamAddAll calls (hnd, memory)).2.2 := by
  induction calls generalizing params hnd memory with
  | nil => simpa [fwParamAddAll] using packed
  | cons call _ ih =>
    have later := fun other member => known other (mem_cons_of_mem call member)
    rw [fwParamAddAll]
    rcases packed.add (known call mem_cons_self) call.2 with refused | ⟨_, _, added, next⟩
    · simpa [refused] using ih packed later
    · simpa [added] using ih next later

theorem extracted_eq (known : ∀ param ∈ params, param.1 < eFwParamListLen)
    (data : slice memory hnd.packDataPt (encode params).length = encode params)
    (same : hnd.packDataPt = hnd.packIdx)
    (len : hnd.packDataToDecodeLen = hnd.packIdx + (encode params).length) :
    extracted memory hnd = params.map kept := by
  induction params generalizing hnd with
  | nil =>
    have stop : fwParamGet memory hnd = none := by
      rw [fwParamGet, if_pos (by simp [len, encode])]
    rw [extracted]
    split
    · rfl
    · next found => simp [stop] at found
  | cons param params ih =>
    obtain ⟨id, value⟩ := param
    have isKnown : id < eFwParamListLen := known _ mem_cons_self
    have head : encode ((id, value) :: params) =
      bytes 1 id ++ bytes (fwParamLen id) value ++ encode params := rfl
    rw [head, length_append, length_append, length_bytes, length_bytes] at len data
    rw [slice_add, slice_add] at data
    obtain ⟨first, _⟩ := append_inj data (by simp [slice, length_bytes, add_comm])
    obtain ⟨isId, isValue⟩ := append_inj first (by simp [slice, length_bytes])
    have get : fwParamGet memory hnd = some (id, value % 256 ^ fwParamLen id, { hnd with
        packDataPt := hnd.packDataPt + 1 + fwParamLen id
        packIdx := hnd.packIdx + 1 + fwParamLen id }) := by
      have loaded : load memory hnd.packDataPt 1 = id := by
        rw [load, isId, ofDigits_bytes, mod_eq_of_lt (isKnown.trans (by decide))]
      simp only [fwParamGet, loaded]
      rw [if_neg (by omega), if_neg (by omega), if_neg (by omega), load, isValue, ofDigits_bytes]
    rw [extracted]
    split
    · next found => simp [get] at found
    · next found =>
      rw [get] at found
      cases found
      rw [ih (fun other member => known other (mem_cons_of_mem _ member))]
      · rfl
      · rwa [add_assoc]
      · simp only [same]
      · simp only
        omega

end RoundTrip

theorem foldl_flag (params : List (Nat × Nat)) (id : Nat) :
    params.foldl flag (fun _ => none) id = (params.reverse.find? (·.1 = id)).map (·.2) := by
  induction params using reverseRecOn with
  | nil => rfl
  | append_singleton _ param ih =>
    by_cases here : param.1 = id
    · simp [flag, here]
    · simp [flag, here, update_of_ne (Ne.symm here), ih]

/-- Adding parameters writes nothing after the buffer, which then decodes to those whose calls
returned true: to the last value of each, or the first with `fw_par_get_by_id`. -/
def RoundTrips (size : Nat) (before : Memory) (calls : List (Nat × Nat)) (len : Nat) : Prop :=
  ∃ hnd hnd' added memory memory' outLen, fwParamGetHnd before size = some hnd ∧
    fwParamAddAll calls (hnd, before) = (added, hnd', memory) ∧
    fwParamGetPack hnd' memory = some (memory', outLen) ∧
    (∀ i, size ≤ i → memory' i = before i) ∧
    (∃ vals, fwParamGetAll memory' len = some vals ∧
      ∀ id, vals id = ((added.map kept).reverse.find? (·.1 = id)).map (·.2)) ∧
    ∀ id, fwParGetById id memory' len = ((added.map kept).find? (·.1 = id)).map (·.2)

/-- What is packed into a buffer is read back, whatever the buffer held, up to the parameters that
no longer fit. -/
theorem params_round_trip {size : Nat} (large : 2 ≤ size) (small : size ≤ 512) (before : Memory)
    {calls : List (Nat × Nat)} (known : ∀ call ∈ calls, call.1 < eFwParamListLen)
    {len : Nat} (positive : 0 < len) : RoundTrips size before calls len := by
  have start : Packed size before [] ⟨size, 2, load before 0 2, 2⟩ before :=
    ⟨rfl, rfl, rfl, large, rfl, by simp, fun _ _ => rfl⟩
  obtain ⟨⟨added, hnd, memory⟩, run⟩ :
    ∃ result, fwParamAddAll calls (⟨size, 2, load before 0 2, 2⟩, before) = result := ⟨_, rfl⟩
  have packed : Packed size before added hnd memory := by simpa [run] using start.addAll known
  have fits := packed.fits
  have decoded : fwParamGetHnd (store memory 0 2 hnd.packIdx) len =
      some ⟨min len 512, 2, hnd.packIdx, 2⟩ := by
    rw [fwParamGetHnd, if_neg (by omega), load, slice_store, ofDigits_bytes,
      mod_eq_of_lt (by omega)]
  have params : extracted (store memory 0 2 hnd.packIdx) ⟨min len 512, 2, hnd.packIdx, 2⟩ =
      added.map kept :=
    extracted_eq packed.ids ((slice_store_of_disjoint _ _ (.inr le_rfl)).trans packed.data) rfl
      packed.idx
  refine ⟨_, hnd, added, memory, store memory 0 2 hnd.packIdx, _, ?_, run,
    if_neg (by rw [packed.bufSize]; omega), ?_, ⟨_, ?_, fun id => foldl_flag _ id⟩, ?_⟩
  · rw [fwParamGetHnd, if_neg (by omega), min_eq_left small]
  · intro i outside
    rw [store, if_neg (by omega), packed.outside i outside]
  · rw [fwParamGetAll, decoded, Option.bind_eq_bind, Option.bind_some, params]
    rfl
  · intro id
    rw [fwParGetById, decoded, Option.bind_eq_bind, Option.bind_some, params]

/-- Three parameters in a buffer of eight bytes, one of them given twice. -/
theorem mcs_round_trip : RoundTrips 8 (fun _ => 255) [(1, 300), (0, 1), (1, 7)] 8 :=
  params_round_trip (by decide) (by decide) _ (by decide) (by decide)

end Terragraph.FwParam
