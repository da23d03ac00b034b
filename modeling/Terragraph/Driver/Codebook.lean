/-
Module: Terragraph.Driver.Codebook
Purpose: `ArmDriverIf::processCodebook` and `sendCodebook`, and how `getPtBuff` serializes a message
  of antenna weights.
Trusted boundary: none
Main exports: sendCodebook, codebook_complete_iff
-/
import Mathlib

namespace Terragraph.Codebook

open List Nat

/-! A cell of a buffer has the bits of a weight, so weights are of any type. -/

variable {W : Type}

/-- `PhyAntWgtTblPartJson`: the weights of every beam of an RFIC module. -/
structure TablePart (W : Type) where
  module : UInt8
  isRx : UInt8
  antWgtCode : List (List W)

/-- `CodebookFetchReq`, with fields that are not negative. -/
structure FetchReq where
  beamStart : Nat
  beamCount : Nat
  stride : Nat
  strideCount : Nat

/-- `PhyAntWgtTblPart`: some beams of a table. -/
structure TblPart (W : Type) extends TablePart W, FetchReq

/-- `tgfPtPhyAntWgtTblConfig`, with the cells of `antWgtCode` that have been written. -/
structure TblConfig (W : Type) extends FetchReq where
  antWgtTblModule : UInt8
  antWgtTblIsRx : UInt8
  numElements : Nat
  antWgtCode : List W

/-! ### The codebook -/

/-- The table parts as one part. -/
def concatenated : List (TablePart W) → Option (TablePart W)
  | [] => none
  | part :: parts =>
    some { part with antWgtCode := part.antWgtCode ++ parts.flatMap (·.antWgtCode) }

/-- The number of elements of the first weight vector. -/
def TablePart.rowLength (part : TablePart W) : Nat := (part.antWgtCode.headD []).length

/-- `processCodebook`, or `none` when it aborts. -/
def processCodebook (tables : List (List (TablePart W))) : Option (List (List (TablePart W))) := do
  let parts ← tables.mapM concatenated
  if ∀ part ∈ parts, ∀ row ∈ part.antWgtCode, row.length = part.rowLength then
    some (parts.map ([·]))
  else
    none

/-! ### The messages -/

def kMaxBeamCountInOneMsg : Nat := 8

/-- A message with strides of beams. Its `beamStart` is an `i16`, which is read as a `uint16_t`. -/
def message (part : TablePart W) (span : FetchReq) : TblPart W :=
  { part, span with
    beamStart := span.beamStart % 2 ^ 16
    antWgtCode := (range span.strideCount).flatMap fun s =>
      (part.antWgtCode.drop (span.beamStart + s * span.stride)).take span.beamCount }

/-- The messages for one long stride. -/
def chunks (part : TablePart W) (beamStart beamEnd : Nat) : List (TblPart W) :=
  if beamStart < beamEnd then
    message part ⟨beamStart, min kMaxBeamCountInOneMsg (beamEnd - beamStart), 0, 1⟩ ::
      chunks part (beamStart + min kMaxBeamCountInOneMsg (beamEnd - beamStart)) beamEnd
  else
    []
termination_by beamEnd - beamStart
decreasing_by
  rw [kMaxBeamCountInOneMsg]
  omega

/-- The messages for a table, or `none` for a bad request. -/
def tableMessages (req : FetchReq) (part : TablePart W) : Option (List (TblPart W)) :=
  let size := part.antWgtCode.length
  -- the difference is of type `size_t`
  let beamCount := min req.beamCount
    (if req.beamStart ≤ size then size - req.beamStart else size + 2 ^ 64 - req.beamStart)
  if kMaxBeamCountInOneMsg < beamCount then
    let starts := (range req.strideCount).map fun i => req.beamStart + i * req.stride
    some ((starts.takeWhile (· < size)).flatMap fun start => chunks part start (start + beamCount))
  else if size ≤ req.beamStart + req.stride * (req.strideCount - 1) then
    none
  else
    let stridesPerMessage := kMaxBeamCountInOneMsg / beamCount
    let messageCount := (req.strideCount + stridesPerMessage - 1) / stridesPerMessage
    some ((range messageCount).map fun m =>
      message part ⟨req.beamStart + m * stridesPerMessage * req.stride, beamCount, req.stride,
        min stridesPerMessage (req.strideCount - m * stridesPerMessage)⟩)

/-- `sendCodebook`, or `none` when it aborts. -/
def sendCodebook (req : FetchReq) : List (List (TablePart W)) → Option (List (TblPart W))
  | [] => some []
  | [part] :: tables =>
    match tableMessages req part with
    | none => some []
    | some messages => (sendCodebook req tables).map (messages ++ ·)
  | _ :: _ => none

/-- The case of `getPtBuff` for weights, or `none` when the message is longer than `SB_PT_BUFF_LEN`.
-/
def getPtBuff (table : TblPart W) : Option (TblConfig W) :=
  let numElements := (table.antWgtCode.headD []).length % 256
  if 1000 < 24 + table.strideCount * table.beamCount * numElements * 2 then
    none
  else
    some { table.toFetchReq with
      antWgtTblModule := table.module
      antWgtTblIsRx := table.isRx
      numElements := numElements
      -- the loop over `beamCount` rows, not over `strideCount * beamCount`
      antWgtCode := (table.antWgtCode.take table.beamCount).flatMap (·.take numElements) }

/-! ### What a message says -/

/-- The beam whose weights belong to a position of a message. -/
def FetchReq.beam (req : FetchReq) (position : Nat) : Nat :=
  req.beamStart + position / req.beamCount * req.stride + position % req.beamCount

/-- The weights at a position of a buffer. -/
def TblConfig.row (config : TblConfig W) (position : Nat) : List W :=
  (config.antWgtCode.drop (position * config.numElements)).take config.numElements

/-- The buffer for the message has the right weights at every position. -/
def Carries (part : TablePart W) (table : TblPart W) : Prop :=
  ∃ config, getPtBuff table = some config ∧
    ∀ position < config.strideCount * config.beamCount,
      part.antWgtCode[config.beam position]? = some (config.row position)

/-- All messages carry the weights they should, and every requested beam is in a message. -/
def Complete (req : FetchReq) (part : TablePart W) (messages : List (TblPart W)) : Prop :=
  (∀ table ∈ messages, Carries part table) ∧
    ∀ s < req.strideCount, ∀ i < req.beamCount, ∃ table ∈ messages,
      ∃ position < table.strideCount * table.beamCount,
        table.beam position = req.beamStart + s * req.stride + i

/-- The number of strides of the first message. -/
def FetchReq.packed (req : FetchReq) : Nat :=
  if 8 < req.beamCount then 1 else min (8 / req.beamCount) req.strideCount

/-- The first beam of the last message. -/
def FetchReq.lastStart (req : FetchReq) : Nat :=
  if 8 < req.beamCount then
    req.beamStart + (req.strideCount - 1) * req.stride + (req.beamCount - 1) / 8 * 8
  else
    req.beamStart + (req.strideCount - 1) / (8 / req.beamCount) * (8 / req.beamCount) * req.stride

/-- Weight vectors have at most 255 elements, those of a message fit into the buffer and have one
stride, and no message starts after beam 65535. -/
def Transferable (req : FetchReq) (part : TablePart W) : Prop :=
  part.rowLength < 256 ∧
    24 + req.packed * min 8 req.beamCount * part.rowLength * 2 ≤ 1000 ∧
    (part.rowLength = 0 ∨ req.packed = 1) ∧ req.lastStart < 2 ^ 16

/-! ### Serialization -/

/-- Rows of one length can be told apart in the concatenation. -/
theorem take_drop_flatMap {n : Nat} {rows : List (List W)}
    (uniform : ∀ row ∈ rows, row.length = n) (position : Nat) :
    ((rows.flatMap (·.take n)).drop (position * n)).take n = rows.getD position [] := by
  induction rows generalizing position with
  | nil => simp
  | cons row _ ih =>
    have isLength : row.length = n := uniform row (by simp)
    have later := ih fun other member => uniform other (by simp [member])
    rw [flatMap_cons, take_of_length_le isLength.le]
    cases position with
    | zero => simp [← isLength]
    | succ position =>
      have next : (position + 1) * n = row.length + position * n := by
        rw [isLength]
        ring
      rw [next, drop_length_add_append, later, getD_cons_succ]

section Serialized

variable {part : TablePart W} {span : FetchReq}
  (uniform : ∀ row ∈ part.antWgtCode, row.length = part.rowLength)

include uniform

theorem exists_row {beam : Nat} (inTable : beam < part.antWgtCode.length) :
    ∃ row, part.antWgtCode[beam]? = some row ∧ row.length = part.rowLength :=
  ⟨_, getElem?_eq_getElem inTable, uniform _ (getElem_mem inTable)⟩

variable (hasBeams : 0 < span.beamCount) (hasStrides : 0 < span.strideCount)
  (exist : ∀ position < span.strideCount * span.beamCount,
    span.beam position < part.antWgtCode.length)

include hasBeams hasStrides exist

/-- What `getPtBuff` makes of a message: only the weights of the first stride are written. -/
theorem getPtBuff_message : getPtBuff (message part span) =
    if 1000 < 24 + span.strideCount * span.beamCount * (part.rowLength % 256) * 2 then none
    else some { span with
      beamStart := span.beamStart % 2 ^ 16
      antWgtTblModule := part.module
      antWgtTblIsRx := part.isRx
      numElements := part.rowLength % 256
      antWgtCode := ((part.antWgtCode.drop span.beamStart).take span.beamCount).flatMap
        (·.take (part.rowLength % 256)) } := by
  obtain ⟨k, isCount⟩ := exists_eq_succ_of_ne_zero hasStrides.ne'
  obtain ⟨rows, isRows⟩ : ∃ rows,
    (part.antWgtCode.drop span.beamStart).take span.beamCount = rows := ⟨_, rfl⟩
  have count : rows.length = span.beamCount := by
    have inFirst : span.beamCount - 1 < span.beamCount := by omega
    have last := exist (span.beamCount - 1) (inFirst.trans_le (Nat.le_mul_of_pos_left _ hasStrides))
    rw [FetchReq.beam, mod_eq_of_lt inFirst] at last
    rw [← isRows, length_take, length_drop]
    omega
  obtain ⟨later, code⟩ : ∃ later, (message part span).antWgtCode = rows ++ later := by
    simp only [message, isCount, range_succ_eq_map, flatMap_cons, zero_mul, add_zero, isRows]
    exact ⟨_, rfl⟩
  have head : ((rows ++ later).headD []).length = part.rowLength := by
    cases rows with
    | nil =>
      rw [length_nil] at count
      omega
    | cons row =>
      have member : row ∈ (part.antWgtCode.drop span.beamStart).take span.beamCount := by
        simp [isRows]
      exact uniform row (mem_of_mem_drop (mem_of_mem_take member))
  rw [getPtBuff, code, head, isRows]
  simp only [message, take_left' count]

/-- A message carries the weights of its beams if and only if they have one stride and fit. -/
theorem carries_message_iff (low : span.beamStart < 2 ^ 16) :
    Carries part (message part span) ↔ part.rowLength < 256 ∧
      24 + span.strideCount * span.beamCount * part.rowLength * 2 ≤ 1000 ∧
      (part.rowLength = 0 ∨ span.strideCount = 1) := by
  have rows : ∀ row ∈ (part.antWgtCode.drop span.beamStart).take span.beamCount,
      row.length = part.rowLength := fun row member =>
    uniform row (mem_of_mem_drop (mem_of_mem_take member))
  rw [Carries, getPtBuff_message uniform hasBeams hasStrides exist, mod_eq_of_lt low]
  constructor
  · rintro ⟨_, sent, right⟩
    split at sent
    · cases sent
    · next fits =>
      cases sent
      simp only [TblConfig.row] at right
      have short : part.rowLength < 256 := by
        have inMessage := mul_pos hasStrides hasBeams
        obtain ⟨_, found, isLength⟩ := exists_row uniform (exist 0 inMessage)
        have first := found.symm.trans (right 0 inMessage)
        rw [Option.some.injEq] at first
        rw [← isLength, first, length_take]
        omega
      rw [mod_eq_of_lt short] at fits right
      refine ⟨short, Nat.le_of_not_lt fits, ?_⟩
      by_contra several
      obtain ⟨nonempty, _⟩ := not_or.mp several
      -- the first row of the second stride was not written
      have inMessage := lt_mul_of_one_lt_left hasBeams (show 1 < span.strideCount by omega)
      obtain ⟨_, found, isLength⟩ := exists_row uniform (exist _ inMessage)
      have second := found.symm.trans (right _ inMessage)
      rw [take_drop_flatMap rows, getD_eq_getElem?_getD, getElem?_eq_none (by simp)] at second
      cases second
      exact nonempty isLength.symm
  · rintro ⟨short, fits, single⟩
    rw [mod_eq_of_lt short, if_neg (not_lt.mpr fits)]
    refine ⟨_, rfl, fun position inMessage => ?_⟩
    obtain ⟨_, found, isLength⟩ := exists_row uniform (exist position inMessage)
    refine found.trans ?_
    rw [TblConfig.row]
    rcases single with empty | single
    · simp only [empty, take_zero, length_eq_zero_iff.mp (isLength.trans empty)]
    · simp only [single, one_mul] at inMessage
      rw [FetchReq.beam, div_eq_of_lt inMessage, mod_eq_of_lt inMessage,
        zero_mul, add_zero] at found
      rw [take_drop_flatMap rows, getD_eq_getElem?_getD, getElem?_take_of_lt inMessage,
        getElem?_drop, found]
      rfl

end Serialized

/-! ### Partitioning -/

theorem mem_chunks {part : TablePart W} {beamStart beamEnd : Nat} {table : TblPart W} :
    table ∈ chunks part beamStart beamEnd ↔ ∃ k, beamStart + 8 * k < beamEnd ∧ table =
      message part ⟨beamStart + 8 * k, min 8 (beamEnd - (beamStart + 8 * k)), 0, 1⟩ := by
  fun_induction chunks part beamStart beamEnd with
  | case1 beamStart more ih =>
    simp only [kMaxBeamCountInOneMsg] at ih ⊢
    have next : ∀ k, beamStart + 8 + 8 * k = beamStart + 8 * (k + 1) := fun k => by ring
    rw [mem_cons, ih]
    constructor
    · rintro (rfl | ⟨k, inside, rfl⟩)
      · exact ⟨0, more, rfl⟩
      · rw [min_eq_left (by omega), next] at inside ⊢
        exact ⟨k + 1, inside, rfl⟩
    · rintro ⟨k, inside, rfl⟩
      cases k with
      | zero => exact .inl rfl
      | succ k =>
        refine .inr ⟨k, ?_⟩
        rw [min_eq_left (a := 8) (b := beamEnd - beamStart) (by omega), next]
        exact ⟨inside, rfl⟩
  | case2 beamStart finished =>
    simp only [not_mem_nil, false_iff]
    rintro ⟨k, _, _⟩
    omega

/-- The spans of beams for which messages are sent. -/
inductive Planned (req : FetchReq) : FetchReq → Prop
  | chunk {s k : Nat} (long : 8 < req.beamCount) (inRequest : s < req.strideCount)
      (inStride : 8 * k < req.beamCount) : Planned req
      ⟨req.beamStart + s * req.stride + 8 * k, min 8 (req.beamCount - 8 * k), 0, 1⟩
  | pack {m : Nat} (short : req.beamCount ≤ 8)
      (inRequest : m * (8 / req.beamCount) < req.strideCount) : Planned req
      ⟨req.beamStart + m * (8 / req.beamCount) * req.stride, req.beamCount, req.stride,
      min (8 / req.beamCount) (req.strideCount - m * (8 / req.beamCount))⟩

section Partitioned

variable {req span : FetchReq} {part : TablePart W}

theorem Planned.requested (planned : Planned req span) (hasBeams : 0 < req.beamCount)
    {position : Nat} (inMessage : position < span.strideCount * span.beamCount) :
    ∃ s < req.strideCount, ∃ i < req.beamCount,
      span.beam position = req.beamStart + s * req.stride + i ∧
      (s = req.strideCount - 1 → i = req.beamCount - 1 → req.lastStart = span.beamStart) := by
  rw [FetchReq.beam, FetchReq.lastStart]
  cases planned with
  | @chunk s k long inRequest =>
    simp only [one_mul] at inMessage ⊢
    rw [mod_eq_of_lt inMessage, if_pos long]
    refine ⟨s, inRequest, 8 * k + position, by omega, by omega, ?_⟩
    rintro rfl _
    omega
  | @pack m =>
    have inSpan : position / req.beamCount <
        min (8 / req.beamCount) (req.strideCount - m * (8 / req.beamCount)) :=
      Nat.div_lt_of_lt_mul (by rwa [Nat.mul_comm])
    refine ⟨m * (8 / req.beamCount) + position / req.beamCount, by omega, position % req.beamCount,
      mod_lt _ hasBeams, by ring, fun isLast _ => ?_⟩
    rw [if_neg (by omega), ← isLast, mul_comm m, mul_add_div (by omega),
      div_eq_of_lt (lt_min_iff.mp inSpan).1, add_zero, mul_comm m]

theorem exists_planned (hasBeams : 0 < req.beamCount) {s i : Nat} (inRequest : s < req.strideCount)
    (inStride : i < req.beamCount) : ∃ span, Planned req span ∧
      ∃ position < span.strideCount * span.beamCount,
        span.beam position = req.beamStart + s * req.stride + i := by
  by_cases long : 8 < req.beamCount
  · have inMessage : i % 8 < min 8 (req.beamCount - 8 * (i / 8)) := by omega
    refine ⟨_, .chunk long inRequest (k := i / 8) (by omega), i % 8, by rwa [one_mul], ?_⟩
    simp only [FetchReq.beam, mod_eq_of_lt inMessage]
    omega
  · have several : 0 < 8 / req.beamCount := div_pos (by omega) hasBeams
    have split := div_add_mod' s (8 / req.beamCount)
    have inSpan : s % (8 / req.beamCount) < min (8 / req.beamCount)
        (req.strideCount - s / (8 / req.beamCount) * (8 / req.beamCount)) :=
      lt_min (mod_lt _ several) (by omega)
    refine ⟨_, .pack (m := s / (8 / req.beamCount)) (by omega) (by omega),
      i + s % (8 / req.beamCount) * req.beamCount, ?_, ?_⟩
    · calc i + s % (8 / req.beamCount) * req.beamCount
          < (s % (8 / req.beamCount) + 1) * req.beamCount := by rw [succ_mul]; omega
        _ ≤ _ := mul_le_mul_right _ inSpan
    · rw [FetchReq.beam, add_mul_div_right _ _ hasBeams, add_mul_mod_self_right,
        div_eq_of_lt inStride, mod_eq_of_lt inStride, zero_add]
      rw [add_assoc req.beamStart, ← add_mul, split]

theorem Planned.bounds (planned : Planned req span) (hasBeams : 0 < req.beamCount) :
    0 < span.beamCount ∧ 0 < span.strideCount ∧ span.strideCount ≤ req.packed ∧
      span.beamCount ≤ min 8 req.beamCount ∧ span.beamStart ≤ req.lastStart := by
  rw [FetchReq.packed, FetchReq.lastStart]
  cases planned with
  | @chunk _ _ long inRequest =>
    have earlier := mul_le_mul_right req.stride (le_sub_one_of_lt inRequest)
    rw [if_pos long, if_pos long]
    simp only
    omega
  | @pack m short inRequest =>
    have several : 0 < 8 / req.beamCount := div_pos short hasBeams
    have earlier := (le_div_iff_mul_le several).mpr (le_sub_one_of_lt inRequest)
    rw [if_neg (by omega), if_neg (by omega)]
    simp only
    exact ⟨hasBeams, by omega, by omega, by omega, Nat.add_le_add_left
      (mul_le_mul_right _ (mul_le_mul_right _ earlier)) _⟩

variable (hasBeams : 0 < req.beamCount) (hasStrides : 0 < req.strideCount)

include hasBeams hasStrides

theorem exists_first : ∃ span, Planned req span ∧ span.strideCount = req.packed ∧
    span.beamCount = min 8 req.beamCount := by
  rw [FetchReq.packed]
  by_cases long : 8 < req.beamCount
  · exact ⟨_, .chunk (k := 0) long hasStrides (by omega), (if_pos long).symm, rfl⟩
  · refine ⟨_, .pack (m := 0) (by omega) (by omega), ?_, by simp only; omega⟩
    rw [if_neg long]
    simp

variable (exist : ∀ s < req.strideCount, ∀ i < req.beamCount,
    req.beamStart + s * req.stride + i < part.antWgtCode.length)

include exist

theorem mem_tableMessages : ∃ messages, tableMessages req part = some messages ∧
    ∀ table, table ∈ messages ↔ ∃ span, Planned req span ∧ table = message part span := by
  have last := exist 0 hasStrides (req.beamCount - 1) (by omega)
  have available : min req.beamCount (if req.beamStart ≤ part.antWgtCode.length then
      part.antWgtCode.length - req.beamStart else
      part.antWgtCode.length + 2 ^ 64 - req.beamStart) = req.beamCount := by
    rw [if_pos (by omega)]
    omega
  rw [tableMessages, available, kMaxBeamCountInOneMsg]
  split
  · next long =>
    refine ⟨_, rfl, fun table => ?_⟩
    have inTable : ∀ start ∈ (range req.strideCount).map fun i => req.beamStart + i * req.stride,
        decide (start < part.antWgtCode.length) = true := by
      simp only [mem_map, mem_range, decide_eq_true_eq]
      rintro _ ⟨s, inRequest, rfl⟩
      exact exist s inRequest 0 hasBeams
    rw [takeWhile_eq_self_iff.mpr inTable]
    simp only [mem_flatMap, mem_map, mem_range, mem_chunks, Nat.add_lt_add_iff_left,
      Nat.add_sub_add_left]
    constructor
    · rintro ⟨_, ⟨s, inRequest, rfl⟩, k, inStride, rfl⟩
      exact ⟨_, .chunk long inRequest inStride, rfl⟩
    · rintro ⟨_, planned, rfl⟩
      cases planned with
      | chunk _ inRequest inStride => exact ⟨_, ⟨_, inRequest, rfl⟩, _, inStride, rfl⟩
      | pack => omega
  · have lastStride := exist (req.strideCount - 1) (by omega) 0 hasBeams
    rw [mul_comm] at lastStride
    rw [if_neg (by omega)]
    refine ⟨_, rfl, fun _ => ?_⟩
    have several : 0 < 8 / req.beamCount := div_pos (by omega) hasBeams
    have inCount : ∀ m, m < (req.strideCount + 8 / req.beamCount - 1) / (8 / req.beamCount) ↔
        m * (8 / req.beamCount) < req.strideCount := by
      intro m
      rw [lt_iff_add_one_le, le_div_iff_mul_le several, succ_mul]
      omega
    simp only [mem_map, mem_range, inCount]
    constructor
    · rintro ⟨m, inRequest, rfl⟩
      exact ⟨_, .pack (by omega) inRequest, rfl⟩
    · rintro ⟨_, planned, rfl⟩
      cases planned with
      | chunk => omega
      | pack _ inRequest => exact ⟨_, inRequest, rfl⟩

theorem complete_iff (uniform : ∀ row ∈ part.antWgtCode, row.length = part.rowLength)
    (hasStride : 0 < req.stride) : ∃ messages, tableMessages req part = some messages ∧
      (Complete req part messages ↔ Transferable req part) := by
  obtain ⟨messages, sent, members⟩ := mem_tableMessages hasBeams hasStrides exist
  refine ⟨messages, sent, ?_⟩
  have carries : ∀ {span}, Planned req span → req.lastStart < 2 ^ 16 → _ := fun planned low =>
    carries_message_iff uniform (planned.bounds hasBeams).1 (planned.bounds hasBeams).2.1
      (fun _ inMessage => by
        obtain ⟨s, inRequest, i, inStride, isBeam, _⟩ := planned.requested hasBeams inMessage
        exact isBeam ▸ exist s inRequest i inStride)
      ((planned.bounds hasBeams).2.2.2.2.trans_lt low)
  constructor
  · rintro ⟨right, covered⟩
    have low : req.lastStart < 2 ^ 16 := by
      -- the last requested beam is not in a message whose start was truncated
      obtain ⟨_, member, _, inMessage, isLast⟩ :=
        covered (req.strideCount - 1) (by omega) (req.beamCount - 1) (by omega)
      obtain ⟨_, planned, rfl⟩ := (members _).mp member
      obtain ⟨s, inRequest, i, _, isBeam, last⟩ := planned.requested hasBeams inMessage
      have earlier := mul_le_mul_right req.stride (le_sub_one_of_lt inRequest)
      simp only [FetchReq.beam, message] at isLast isBeam
      have sameStride : s * req.stride = (req.strideCount - 1) * req.stride := by omega
      rw [last (eq_of_mul_eq_mul_right hasStride sameStride) (by omega)]
      omega
    obtain ⟨span, planned, strides, beams⟩ := exists_first hasBeams hasStrides
    have first := (carries planned low).mp (right _ ((members _).mpr ⟨span, planned, rfl⟩))
    rw [strides, beams] at first
    exact ⟨first.1, first.2.1, first.2.2, low⟩
  · rintro ⟨short, fits, single, low⟩
    constructor
    · intro _ member
      obtain ⟨_, planned, rfl⟩ := (members _).mp member
      obtain ⟨_, some_strides, strides, beams, _⟩ := planned.bounds hasBeams
      refine (carries planned low).mpr ⟨short, le_trans ?_ fits, single.imp_right fun _ => by omega⟩
      gcongr
    · intro s inRequest i inStride
      obtain ⟨span, planned, position, inMessage, isBeam⟩ :=
        exists_planned hasBeams inRequest inStride
      refine ⟨_, (members _).mpr ⟨span, planned, rfl⟩, position, inMessage, isBeam ▸ ?_⟩
      simp only [message]
      rw [mod_eq_of_lt ((planned.bounds hasBeams).2.2.2.2.trans_lt low)]

end Partitioned

theorem sendCodebook_parts {req : FetchReq} {parts : List (TablePart W)}
    (sent : ∀ part ∈ parts, ∃ messages, tableMessages req part = some messages) :
    sendCodebook req (parts.map ([·])) =
      some (parts.flatMap fun part => (tableMessages req part).getD []) := by
  induction parts with
  | nil => rfl
  | cons part _ ih =>
    obtain ⟨_, isSent⟩ := sent part (by simp)
    have later := ih fun other member => sent other (by simp [member])
    simp [sendCodebook, isSent, later]

/-- Every part of a processed codebook is sent, and completely if and only if it is transferable. -/
theorem codebook_complete_iff {tables codebook : List (List (TablePart W))} {req : FetchReq}
    (processed : processCodebook tables = some codebook)
    (positive : 0 < req.beamCount ∧ 0 < req.stride ∧ 0 < req.strideCount)
    (exist : ∀ part ∈ codebook.flatten, ∀ s < req.strideCount, ∀ i < req.beamCount,
      req.beamStart + s * req.stride + i < part.antWgtCode.length) :
    sendCodebook req codebook =
        some (codebook.flatten.flatMap fun part => (tableMessages req part).getD []) ∧
      ((∀ part ∈ codebook.flatten, Complete req part ((tableMessages req part).getD [])) ↔
        ∀ part ∈ codebook.flatten, Transferable req part) := by
  obtain ⟨hasBeams, hasStride, hasStrides⟩ := positive
  obtain ⟨parts, _, processed⟩ := Option.bind_eq_some_iff.mp processed
  split at processed
  · next uniform =>
    cases processed
    have flat : (parts.map ([·])).flatten = parts := by
      rw [← flatMap_def, flatMap_singleton']
    rw [flat] at exist ⊢
    have complete := fun part member =>
      complete_iff hasBeams hasStrides (exist part member) (uniform part member) hasStride
    refine ⟨sendCodebook_parts fun part member => ?_, forall₂_congr fun part member => ?_⟩
    · obtain ⟨messages, sent, _⟩ := complete part member
      exact ⟨messages, sent⟩
    · obtain ⟨_, sent, iff⟩ := complete part member
      rw [sent]
      exact iff
  · cases processed

/-- A table of two beams with one weight each. -/
def twoBeams : TablePart Nat := { module := 0, isRx := 0, antWgtCode := [[5], [7]] }

/-- A codebook with one stride and two beams is sent whole. -/
theorem single_stride_complete : processCodebook [[twoBeams]] = some [[twoBeams]] ∧
    ∀ part ∈ [[twoBeams]].flatten,
      Complete ⟨0, 2, 1, 1⟩ part ((tableMessages ⟨0, 2, 1, 1⟩ part).getD []) := by
  have processed : processCodebook [[twoBeams]] = some [[twoBeams]] := rfl
  have complete := @codebook_complete_iff Nat _ _ ⟨0, 2, 1, 1⟩ processed (by decide) (by decide)
  refine ⟨processed, complete.2.mpr ?_⟩
  intro _ member
  cases mem_singleton.mp member
  unfold Transferable
  decide

/-- Of two strides in one message, the second is not sent. -/
theorem second_stride_missing : processCodebook [[twoBeams]] = some [[twoBeams]] ∧
    ¬ Complete ⟨0, 1, 1, 2⟩ twoBeams ((tableMessages ⟨0, 1, 1, 2⟩ twoBeams).getD []) := by
  refine ⟨rfl, fun complete => ?_⟩
  obtain ⟨_, sent, right⟩ := complete.1 _ mem_cons_self
  cases sent
  exact absurd (right 1 (by decide)) (by decide)

end Terragraph.Codebook
