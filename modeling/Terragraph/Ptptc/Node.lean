/-
Module: Terragraph.Ptptc.Node
Purpose: The PTP transparent clock on a little-endian host: ptptc_set_timestamp, and
  ptptc_node_inline, which filters packets in pairs and one by one.
Trusted boundary: timers, timestamps, the product with the clock offset and the frames are
  parameters; `ip6_locate_header` and the checksum do as documented
Main exports: PtptcMain, correctionField_is_residence_time_iff, checksums_valid_iff
-/
import Terragraph.Lib.Bytes

namespace Terragraph.Ptptc

open Bytes Nat List Function

/-- The words of the 1588 timer that are read. -/
structure WriopRegs where
  tmrCntL : Nat
  tmrCntH : Nat
  tmrOffL : Nat
  tmrOffH : Nat

def dpaa2GetPpsOffset : Option WriopRegs → Nat
  | none => 2 ^ 64 - 1
  | some reg => reg.tmrOffL ||| reg.tmrOffH <<< 32

def dpaa2GetCurrentTimestamp : Option WriopRegs → Nat
  | none => 2 ^ 64 - 1
  | some reg => reg.tmrCntL ||| reg.tmrCntH <<< 32

def dpaa2GetCurrentTimestampWithOffset : Option WriopRegs → Nat
  | none => 2 ^ 64 - 1
  | some reg => (dpaa2GetCurrentTimestamp (some reg) + dpaa2GetPpsOffset (some reg)) % 2 ^ 64

structure PtptcMain where
  useHwTimestamping : Bool
  timingOffset : Int
  clkOffsetPpb : Int
  wriopRegs : Option WriopRegs
  egressIndex : Nat
  rxChecksumOffloadCapa : Bool
  rxPtpClassifyOffloadCapa : Bool

/-- The fields of the PTP header that the node reads or writes, as the host reads their bytes. -/
structure PtpHeader where
  messageType : Nat
  correctionField : Nat
  messageTypeSpecific : Nat
  deriving DecidableEq

def ptpTypeSync : Nat := 0

def ptpTypeDelayReq : Nat := 1

def PtpHeader.timed (header : PtpHeader) : Bool :=
  header.messageType % 16 == ptpTypeSync || header.messageType % 16 == ptpTypeDelayReq

/-- What `ptptc_set_timestamp` leaves: the buffer's timestamp, the header, whether the packet counts
as handled, and the value returned. -/
structure Stamped where
  timestamp : Nat
  header : PtpHeader
  handled : Bool
  rewritten : Bool

section Correction

variable (scaled : Nat → Int → Int) (pmp : PtptcMain)

def elapsed (header : PtpHeader) : Nat :=
  (dpaa2GetCurrentTimestampWithOffset pmp.wriopRegs % 2 ^ 32 + 2 ^ 32
    - swap 4 header.messageTypeSpecific) % 2 ^ 32

def recoverTs (header : PtpHeader) : Int :=
  (dpaa2GetCurrentTimestampWithOffset pmp.wriopRegs - elapsed pmp header - pmp.timingOffset
    + scaled (elapsed pmp header) pmp.clkOffsetPpb) % 2 ^ 64

def ptptcSetTimestamp (featureArcIndex timestamp : Nat) (header : PtpHeader) : Stamped :=
  if header.timed then
    if featureArcIndex ≠ pmp.egressIndex then
      { timestamp
        header := { header with messageTypeSpecific := swap 4 (timestamp % 2 ^ 32) }
        handled := true
        rewritten := true }
    else
      let curTs := dpaa2GetCurrentTimestampWithOffset pmp.wriopRegs
      let recovered := recoverTs scaled pmp header
      let cleared := { header with messageTypeSpecific := 0 }
      if pmp.useHwTimestamping then
        { timestamp := recovered.toNat, header := cleared, handled := true, rewritten := false }
      else
        let correction := ((curTs - recovered) * 2 ^ 16 % 2 ^ 64).toNat
        { timestamp
          header :=
            { cleared with
              correctionField := (header.correctionField + swap 8 correction) % 2 ^ 64 }
          handled := true
          rewritten := true }
  else
    { timestamp, header, handled := false, rewritten := false }

def passThrough (ingressArc ingress : Nat) (header : PtpHeader) : PtpHeader :=
  let entered := (ptptcSetTimestamp scaled pmp ingressArc ingress header).header
  (ptptcSetTimestamp scaled pmp pmp.egressIndex ingress entered).header

def wordsApart (ingress egress : Nat) : Nat :=
  (egress % 2 ^ 32 + 2 ^ 32 - ingress % 2 ^ 32) % 2 ^ 32

variable {scaled pmp} {ingressArc ingress : Nat} {header : PtpHeader}

theorem ptptcSetTimestamp_ingress (timed : header.timed = true)
    (isIngress : ingressArc ≠ pmp.egressIndex) :
    (ptptcSetTimestamp scaled pmp ingressArc ingress header).header =
      { header with messageTypeSpecific := swap 4 (ingress % 2 ^ 32) } := by
  simp only [ptptcSetTimestamp, timed, isIngress, if_true, ne_eq, not_false_eq_true]

theorem ptptcSetTimestamp_egress (software : pmp.useHwTimestamping = false)
    (noOffset : pmp.timingOffset = 0) (noScale : ∀ diff, scaled diff pmp.clkOffsetPpb = 0)
    (timed : header.timed = true) :
    (ptptcSetTimestamp scaled pmp pmp.egressIndex ingress header).header = { header with
        messageTypeSpecific := 0
        correctionField :=
          (header.correctionField + swap 8 (elapsed pmp header * 2 ^ 16)) % 2 ^ 64 } := by
  have small : elapsed pmp header < 2 ^ 32 := Nat.mod_lt _ (by decide)
  have added : ((dpaa2GetCurrentTimestampWithOffset pmp.wriopRegs - recoverTs scaled pmp header)
      * 2 ^ 16 % 2 ^ 64).toNat = elapsed pmp header * 2 ^ 16 := by
    rw [recoverTs, noScale]
    omega
  simp only [ptptcSetTimestamp, timed, software, if_true, ne_eq, not_true_eq_false, if_false,
    Bool.false_eq_true, added]

theorem elapsed_entered :
    elapsed pmp { header with messageTypeSpecific := swap 4 (ingress % 2 ^ 32) } =
      wordsApart ingress (dpaa2GetCurrentTimestampWithOffset pmp.wriopRegs) := by
  have back : swap 4 (swap 4 (ingress % 2 ^ 32)) = ingress % 2 ^ 32 := by
    rw [Bytes.swap_swap]
    exact mod_mod ingress (2 ^ 32)
  rw [elapsed, back, wordsApart]

/-- With software timestamping, the correction field has grown by the residence time if and only if
this fits the low word and no byte overflows: carries go the wrong way. -/
theorem correctionField_is_residence_time_iff (software : pmp.useHwTimestamping = false)
    (noOffset : pmp.timingOffset = 0) (noScale : ∀ diff, scaled diff pmp.clkOffsetPpb = 0)
    (timed : header.timed = true) (isIngress : ingressArc ≠ pmp.egressIndex) :
    ((swap 8 (passThrough scaled pmp ingressArc ingress header).correctionField : Int) =
        (swap 8 header.correctionField
          + (dpaa2GetCurrentTimestampWithOffset pmp.wriopRegs - ingress) * 2 ^ 16) % 2 ^ 64 ∧
      (passThrough scaled pmp ingressArc ingress header).messageTypeSpecific = 0) ↔
    ((dpaa2GetCurrentTimestampWithOffset pmp.wriopRegs : Int) - ingress) % 2 ^ 48 < 2 ^ 32 ∧
      NoCarry 8 (swap 8 header.correctionField)
        (wordsApart ingress (dpaa2GetCurrentTimestampWithOffset pmp.wriopRegs) * 2 ^ 16) := by
  have stillTimed :
      PtpHeader.timed { header with messageTypeSpecific := swap 4 (ingress % 2 ^ 32) } = true :=
    timed
  rw [passThrough, ptptcSetTimestamp_ingress timed isIngress,
    ptptcSetTimestamp_egress software noOffset noScale stillTimed, elapsed_entered]
  generalize dpaa2GetCurrentTimestampWithOffset pmp.wriopRegs = egress
  generalize header.correctionField = c
  -- the number that should be added, as a number of eight bytes
  obtain ⟨y, _⟩ : ∃ y : Nat, (y : Int) = ((egress : Int) - ingress) * 2 ^ 16 % 2 ^ 64 :=
    ⟨_, Int.toNat_of_nonneg (Int.emod_nonneg _ (by decide))⟩
  have isX : wordsApart ingress egress * 2 ^ 16 = y % 2 ^ 48 := by
    unfold wordsApart
    omega
  have low : ∀ i < 6, byte y i = byte (y % 256 ^ 6) i :=
    mod_eq_iff.mp (mod_mod y (256 ^ 6)).symm
  have high : ∀ i < 8, 6 ≤ i → byte (y % 256 ^ 6) i = 0 := by
    intro i _ isHigh
    have small : y % 256 ^ 6 < 256 ^ i :=
      (Nat.mod_lt _ (by decide)).trans_le (Nat.pow_le_pow_right (by decide) isHigh)
    rw [byte, div_eq_of_lt small]
  have field : (swap 8 ((c + swap 8 (wordsApart ingress egress * 2 ^ 16)) % 2 ^ 64) : Int) =
      (swap 8 c + ((egress : Int) - ingress) * 2 ^ 16) % 2 ^ 64 ↔
      swap 8 (c + swap 8 (y % 256 ^ 6)) % 256 ^ 8 = (swap 8 c + y) % 256 ^ 8 := by
    have bound := swap_lt 8 (c + swap 8 (y % 256 ^ 6))
    have whole := swap_mod 8 (c + swap 8 (y % 256 ^ 6))
    norm_num at bound whole isX ⊢
    rw [isX]
    omega
  have fits : ((egress : Int) - ingress) % 2 ^ 48 < 2 ^ 32 ↔
      y % 256 ^ 8 = y % 256 ^ 6 % 256 ^ 8 := by
    omega
  rw [field, fits, isX, and_iff_left rfl]
  exact swap_add_iff low high

/-- Software timestamping without corrections, read at a time. -/
def softwareClock (now : Nat) : PtptcMain where
  useHwTimestamping := false
  timingOffset := 0
  clkOffsetPpb := 0
  wriopRegs := some { tmrCntL := now, tmrCntH := 0, tmrOffL := 0, tmrOffH := 0 }
  egressIndex := 1
  rxChecksumOffloadCapa := false
  rxPtpClassifyOffloadCapa := false

/-- A Sync message with a correction of so many nanoseconds. -/
def syncMessage (nanoseconds : Nat) : PtpHeader where
  messageType := ptpTypeSync
  correctionField := swap 8 (nanoseconds * 2 ^ 16)
  messageTypeSpecific := 0

/-- A nanosecond after a correction of 255 of them: the carry is lost in the byte before. -/
theorem carry_goes_wrong_way :
    swap 8 (passThrough (fun _ _ => 0) (softwareClock 11) 0 10 (syncMessage 255)).correctionField =
      2 ^ 8 ∧ ((swap 8 (syncMessage 255).correctionField : Int) + (11 - 10) * 2 ^ 16) % 2 ^ 64 =
        256 * 2 ^ 16 := by
  decide +kernel

/-- A packet that stays for 5 ns is corrected by 5 ns. -/
theorem residence_time_of_five_nanoseconds :
    (swap 8 (passThrough (fun _ _ => 0) (softwareClock 15) 0 10 (syncMessage 7)).correctionField :
        Int) = (swap 8 (syncMessage 7).correctionField
          + (dpaa2GetCurrentTimestampWithOffset (softwareClock 15).wriopRegs - 10) * 2 ^ 16)
            % 2 ^ 64 ∧
      (passThrough (fun _ _ => 0) (softwareClock 15) 0 10 (syncMessage 7)).messageTypeSpecific =
        0 := by
  have small : NoCarry 8 (swap 8 (syncMessage 7).correctionField)
      (wordsApart 10 (dpaa2GetCurrentTimestampWithOffset (softwareClock 15).wriopRegs) * 2 ^ 16) := by
    unfold NoCarry
    decide +kernel
  exact (correctionField_is_residence_time_iff rfl rfl (fun _ => rfl) rfl (by decide)).mpr
    ⟨by decide +kernel, small⟩

end Correction

/-! ### Packets -/

def words (n x : Nat) : Nat := ((range n).map fun i => x / 65536 ^ i % 65536).sum

/-- The UDP segment that `ip6_locate_header` finds, and the payload length before it. -/
structure Udp where
  payloadLength : Nat
  length : Nat
  dstPort : Nat
  checksum : Nat
  header : PtpHeader
  /-- Sum of all other words of the pseudo header and the segment. -/
  others : Nat
  /-- The pseudo header has the protocol number. -/
  others_pos : 0 < others

def Udp.sum (udp : Udp) : Nat :=
  udp.others + words 4 udp.header.correctionField + words 2 udp.header.messageTypeSpecific

def fold (sum : Nat) : Nat := if sum = 0 then 0 else (sum - 1) % 65535 + 1

/-- `ip6_tcp_udp_icmp_compute_checksum`, of the segment as stored. -/
def Udp.computeChecksum (udp : Udp) : Nat := 65535 - fold (udp.sum + udp.checksum)

def Udp.Valid (udp : Udp) : Prop :=
  0 < udp.checksum ∧ udp.checksum < 2 ^ 16 ∧ udp.computeChecksum = 0

/-- The bits of buffer and mbuf that are read; the IPv6 header stands at the direction's offset. -/
structure Packet where
  featureArcIndex : Nat
  rxIeee1588Ptp : Bool
  rxL4CksumBad : Bool
  timestamp : Nat
  l4ChecksumComputed : Bool
  l4ChecksumCorrect : Bool
  offloadUdpCksum : Bool
  udp : Option Udp

inductive Ip6Error where
  | udpLength
  | udpChecksum
  deriving DecidableEq

/-- Where the filter leaves: at an exit without or with an error, or at the PTP header. -/
inductive Verdict where
  | forward
  | drop (error : Ip6Error)
  | stamp (udp : Udp)

def ptpEvent : Nat := 319

/-- `validate_checksum`: a missing checksum counts as correct. -/
def validateChecksum (udp : Udp) : Bool := udp.checksum == 0 || udp.computeChecksum == 0

def Packet.goodInSoftware (p : Packet) (udp : Udp) : Bool :=
  p.l4ChecksumCorrect || p.offloadUdpCksum || !p.l4ChecksumComputed && validateChecksum udp

/-- The filter from the IPv6 header on. -/
def filterHeaders (goodL4Csum : Bool) (p : Packet) : Verdict :=
  match p.udp with
  | none => .forward
  | some udp =>
    if udp.payloadLength < udp.length then .drop .udpLength
    else if udp.dstPort ≠ ptpEvent then .forward
    else if goodL4Csum || p.goodInSoftware udp then .stamp udp
    else .drop .udpChecksum

section Node

variable (scaled : Nat → Int → Int) (pmp : PtptcMain)

def Packet.ingress (p : Packet) : Bool := p.featureArcIndex != pmp.egressIndex

/-- The filter, with the offload flag it tests and whether a good flag sets the packet's variable.
-/
def filterPacket (cksumBad ownGood : Bool) (p : Packet) : Verdict :=
  if p.ingress pmp && pmp.rxPtpClassifyOffloadCapa && !p.rxIeee1588Ptp then .forward
  else if p.ingress pmp && pmp.rxChecksumOffloadCapa && cksumBad then .forward
  else filterHeaders (p.ingress pmp && pmp.rxChecksumOffloadCapa && ownGood) p

/-- One pass through the body of a loop. -/
inductive Turn where
  | first (p : Packet)
  /-- After the first packet; `ol_flags0` holds a stale bit if that is an egress packet. -/
  | second (stale : Bool) (p0 p1 : Packet)
  | single (p : Packet)

def Turn.packet : Turn → Packet
  | .first p => p
  | .second _ _ p1 => p1
  | .single p => p

/-- The copies of the filter; that of the second packet reads `ol_flags0`, sets `good_l4_csum0`. -/
def Turn.verdict : Turn → Verdict
  | .first p => filterPacket pmp p.rxL4CksumBad true p
  | .second stale p0 p1 =>
    filterPacket pmp (if p0.ingress pmp then p0.rxL4CksumBad else stale) false p1
  | .single p => filterPacket pmp p.rxL4CksumBad true p

def Turn.clears : Turn → Bool
  | .single _ => false
  | _ => true

structure Outcome where
  /-- The error that sends the packet to `PTPTC_NEXT_DROP`. -/
  error : Option Ip6Error
  handled : Bool
  stamped : Bool
  rewritten : Bool
  udp : Option Udp

/-- `ptptc_set_timestamp` and the update of the checksum. -/
def restamp (clears : Bool) (p : Packet) (udp : Udp) : Outcome :=
  let done := ptptcSetTimestamp scaled pmp p.featureArcIndex p.timestamp udp.header
  let written := { udp with header := done.header }
  let checksum :=
    if done.rewritten then
      { written with checksum := if clears then 0 else udp.checksum }.computeChecksum
    else udp.checksum
  { error := none, handled := done.handled, stamped := true, rewritten := done.rewritten
    udp := some { written with checksum } }

def Turn.outcome (turn : Turn) : Outcome :=
  match turn.verdict pmp with
  | .forward => ⟨none, false, false, false, turn.packet.udp⟩
  | .drop error => ⟨some error, false, false, false, turn.packet.udp⟩
  | .stamp udp => restamp scaled pmp turn.clears turn.packet udp

/-- Drop or forward, counted as handled, `ptptc_set_timestamp` run. -/
def Outcome.decision (outcome : Outcome) : Bool × Bool × Bool :=
  (outcome.error.isSome, outcome.handled, outcome.stamped)

/-- Whether the next frame has room for two, and what `ol_flags0` holds before it is set. -/
structure LoopEnv where
  dual : Nat → Bool
  stale : Nat → Bool

/-- The two loops: packets go in pairs while four are left. -/
def turns (env : LoopEnv) : Nat → List Packet → List Turn
  | _, [] => []
  | _, [p] => [.single p]
  | i, p0 :: p1 :: rest =>
    if env.dual i && 2 ≤ rest.length then
      .first p0 :: .second (env.stale i) p0 p1 :: turns env (i + 1) rest
    else .single p0 :: turns env (i + 1) (p1 :: rest)

def ptptcNodeInline (env : LoopEnv) (packets : List Packet) : List Outcome :=
  (turns env 0 packets).map (Turn.outcome scaled pmp)

theorem turns_packet (env : LoopEnv) (i : Nat) (packets : List Packet) :
    (turns env i packets).map Turn.packet = packets := by
  fun_induction turns env i packets <;> simp_all [Turn.packet]

/-! ### Decisions -/

/-- The filter of the packet after its offload flag forwards it. -/
def Packet.forPtp (p : Packet) : Bool :=
  match p.udp with
  | none => false
  | some udp => udp.payloadLength < udp.length || udp.dstPort == ptpEvent

/-- The second packet of a pair is judged by the first's offload flag as by its own: they agree or
it is not for PTP, and if both are good its checksum is good in software. -/
def Turn.Transparent : Turn → Prop
  | .second stale p0 p1 =>
    p1.ingress pmp → pmp.rxChecksumOffloadCapa →
    (pmp.rxPtpClassifyOffloadCapa → p1.rxIeee1588Ptp) →
    ((if p0.ingress pmp then p0.rxL4CksumBad else stale) = p1.rxL4CksumBad ∨ p1.forPtp = false) ∧
      ((if p0.ingress pmp then p0.rxL4CksumBad else stale) = false → p1.rxL4CksumBad = false →
        ∀ udp, p1.udp = some udp → udp.length ≤ udp.payloadLength → udp.dstPort = ptpEvent →
          p1.goodInSoftware udp)
  | _ => True

/-- The decisions that follow from where the filter leaves. -/
def Verdict.decision : Verdict → Bool × Bool × Bool
  | .forward => (false, false, false)
  | .drop _ => (true, false, false)
  | .stamp udp => (false, udp.header.timed, true)

theorem decision_outcome (turn : Turn) :
    (turn.outcome scaled pmp).decision = (turn.verdict pmp).decision := by
  unfold Turn.outcome
  cases turn.verdict pmp with
  | forward | drop error => rfl
  | stamp udp =>
    simp only [Verdict.decision, restamp, ptptcSetTimestamp]
    cases timed : udp.header.timed with
    | false => rfl
    | true =>
      simp only [if_true]
      split
      · rfl
      · split <;> rfl

theorem filterHeaders_forward_iff (good : Bool) (p : Packet) :
    (filterHeaders good p).decision = Verdict.forward.decision ↔ p.forPtp = false := by
  unfold filterHeaders Packet.forPtp
  cases p.udp with
  | none => simp
  | some => grind [Verdict.decision]

theorem filterHeaders_good_iff (p : Packet) :
    (filterHeaders false p).decision = (filterHeaders true p).decision ↔
      ∀ udp, p.udp = some udp → udp.length ≤ udp.payloadLength → udp.dstPort = ptpEvent →
        p.goodInSoftware udp := by
  unfold filterHeaders
  cases p.udp with
  | none => simp
  | some => grind [Verdict.decision]

theorem transparent_iff (turn : Turn) :
    (turn.verdict pmp).decision = (Turn.verdict pmp (.single turn.packet)).decision ↔
      turn.Transparent pmp := by
  cases turn with
  | first p | single p => exact iff_of_true rfl trivial
  | second stale p0 p1 =>
    simp only [Turn.verdict, Turn.packet, Turn.Transparent, filterPacket]
    generalize (if p0.ingress pmp then p0.rxL4CksumBad else stale) = bad
    by_cases offloads : p1.ingress pmp && pmp.rxChecksumOffloadCapa
    · obtain ⟨ingress, capa⟩ := Bool.and_eq_true_iff.mp offloads
      by_cases classified : pmp.rxPtpClassifyOffloadCapa → p1.rxIeee1588Ptp
      · have passes : (pmp.rxPtpClassifyOffloadCapa && !p1.rxIeee1588Ptp) = false := by grind
        have forwards : ∀ good, Verdict.forward.decision = (filterHeaders good p1).decision ↔
            p1.forPtp = false :=
          fun good => eq_comm.trans (filterHeaders_forward_iff good p1)
        rw [imp_iff_right classified]
        -- a bad flag forwards the packet, a good one leaves it to the headers
        rcases Bool.eq_false_or_eq_true p1.rxL4CksumBad with own | own <;> cases bad <;>
          simp [ingress, capa, passes, own, forwards, filterHeaders_forward_iff,
            filterHeaders_good_iff]
      · have stopped : (pmp.rxPtpClassifyOffloadCapa && !p1.rxIeee1588Ptp) = true := by grind
        simp [ingress, stopped, classified]
    · refine iff_of_true ?_ fun ingress capa =>
        absurd (Bool.and_eq_true_iff.mpr ⟨ingress, capa⟩) offloads
      simp [Bool.eq_false_iff.mpr offloads]

/-- Every packet of a vector is treated as it would be alone if and only if every second packet of a
pair is judged alike by the first's offload flag and by its own. -/
theorem decisions_as_alone_iff (env : LoopEnv) (packets : List Packet) :
    (ptptcNodeInline scaled pmp env packets).map Outcome.decision =
        packets.flatMap (fun p => (ptptcNodeInline scaled pmp env [p]).map Outcome.decision) ↔
      ∀ turn ∈ turns env 0 packets, turn.Transparent pmp := by
  have alone : packets.flatMap
      (fun p => (ptptcNodeInline scaled pmp env [p]).map Outcome.decision) =
      packets.map fun p => (Turn.verdict pmp (.single p)).decision := by
    rw [map_eq_flatMap]
    refine congrArg (packets.flatMap ·) (funext fun p => ?_)
    exact congrArg (fun decision => [decision]) (decision_outcome scaled pmp (.single p))
  rw [alone]
  nth_rewrite 2 [← turns_packet env 0 packets]
  rw [ptptcNodeInline, map_map, map_map, map_inj_left]
  refine forall₂_congr fun _ _ => ?_
  rw [← transparent_iff, comp_apply, comp_apply, decision_outcome]

/-! ### Checksums -/

/-- The segment after `ptptc_set_timestamp`, if that has rewritten it. -/
def Turn.contents (turn : Turn) : Option Udp :=
  match turn.verdict pmp with
  | .stamp udp =>
    let done := ptptcSetTimestamp scaled pmp turn.packet.featureArcIndex turn.packet.timestamp
      udp.header
    if done.rewritten then some { udp with header := done.header } else none
  | _ => none

theorem valid_computed_iff (udp : Udp) (present : 0 < udp.checksum) (small : udp.checksum < 2 ^ 16)
    (clears : Bool) :
    Udp.Valid { udp with
        checksum := { udp with checksum := if clears then 0 else udp.checksum }.computeChecksum } ↔
      udp.sum % 65535 ≠ 0 ∧ (clears = true ∨ udp.checksum = 0xffff) := by
  have positive : 0 < udp.sum := Nat.add_pos_left (Nat.add_pos_left udp.others_pos _) _
  have same : ∀ checksum, Udp.sum { udp with checksum } = udp.sum := fun _ => rfl
  have added : ∀ more, fold (udp.sum + more) = (udp.sum + more - 1) % 65535 + 1 :=
    fun _ => if_neg (by omega)
  cases clears <;> simp only [Udp.Valid, Udp.computeChecksum, same, added] <;> simp <;> omega

variable {scaled pmp} {turn : Turn} {udp : Udp}

theorem udp_of_stamp (stamped : turn.verdict pmp = .stamp udp) : turn.packet.udp = some udp := by
  have found : ∀ bad own p, filterPacket pmp bad own p = .stamp udp → p.udp = some udp := by
    intro _ _ p
    unfold filterPacket filterHeaders
    grind
  cases turn with
  | first p => exact found _ _ p stamped
  | second _ _ p1 => exact found _ _ p1 stamped
  | single p => exact found _ _ p stamped

theorem outcome_of_contents (rewrites : turn.contents scaled pmp = some udp) :
    (turn.outcome scaled pmp).rewritten = true ∧ (turn.outcome scaled pmp).udp = some { udp with
      checksum := { udp with
        checksum := if turn.clears then 0 else udp.checksum }.computeChecksum } := by
  unfold Turn.contents at rewrites
  unfold Turn.outcome
  cases verdict : turn.verdict pmp with
  | forward | drop error => simp [verdict] at rewrites
  | stamp =>
    simp only [verdict, Option.ite_none_right_eq_some, Option.some.injEq] at rewrites
    obtain ⟨rewritten, rfl⟩ := rewrites
    simp only [restamp, rewritten, if_true, and_self]

theorem contents_of_rewritten (rewritten : (turn.outcome scaled pmp).rewritten = true) :
    ∃ udp, turn.contents scaled pmp = some udp := by
  unfold Turn.outcome at rewritten
  unfold Turn.contents
  cases verdict : turn.verdict pmp with
  | forward | drop error => simp [verdict] at rewritten
  | stamp =>
    simp only [verdict] at rewritten
    exact ⟨_, if_pos rewritten⟩

theorem checksum_of_contents (rewrites : turn.contents scaled pmp = some udp) :
    ∃ old, turn.packet.udp = some old ∧ udp.checksum = old.checksum := by
  unfold Turn.contents at rewrites
  cases verdict : turn.verdict pmp with
  | forward | drop error => simp [verdict] at rewrites
  | stamp old =>
    simp only [verdict, Option.ite_none_right_eq_some, Option.some.injEq] at rewrites
    exact ⟨old, udp_of_stamp verdict, rewrites.2 ▸ rfl⟩

/-- Rewritten packets leave with valid checksums if and only if the new contents alone do not sum up
to zero, and the field was cleared, which only the loop for pairs does, or held all ones. -/
theorem checksums_valid_iff (env : LoopEnv) (packets : List Packet)
    (valid : ∀ p ∈ packets, ∀ udp, p.udp = some udp → udp.Valid) :
    (∀ outcome ∈ ptptcNodeInline scaled pmp env packets, outcome.rewritten = true →
        ∀ udp, outcome.udp = some udp → udp.Valid) ↔
      ∀ turn ∈ turns env 0 packets, ∀ udp, turn.contents scaled pmp = some udp →
        udp.sum % 65535 ≠ 0 ∧ (turn.clears = true ∨ udp.checksum = 0xffff) := by
  rw [ptptcNodeInline, forall_mem_map]
  refine forall₂_congr fun turn isTurn => ?_
  have atTurn : ∀ udp, turn.contents scaled pmp = some udp →
      ((∀ new, (turn.outcome scaled pmp).udp = some new → new.Valid) ↔
        udp.sum % 65535 ≠ 0 ∧ (turn.clears = true ∨ udp.checksum = 0xffff)) := by
    intro udp rewrites
    obtain ⟨old, isOld, same⟩ := checksum_of_contents rewrites
    have isPacket : turn.packet ∈ packets := by
      rw [← turns_packet env 0 packets]
      exact mem_map_of_mem isTurn
    obtain ⟨present, small, _⟩ := valid turn.packet isPacket old isOld
    rw [← valid_computed_iff udp (same ▸ present) (same ▸ small), (outcome_of_contents rewrites).2]
    simp only [Option.some.injEq, forall_eq']
  constructor
  · intro holds udp rewrites
    exact (atTurn udp rewrites).mp (holds (outcome_of_contents rewrites).1)
  · intro condition rewritten
    obtain ⟨udp, rewrites⟩ := contents_of_rewritten rewritten
    exact (atTurn udp rewrites).mpr (condition udp rewrites)

end Node

/-- A Sync message at the first nanosecond, in a segment whose other words have a sum. -/
def syncPacket (others : Nat) (others_pos : 0 < others) (checksum : Nat) (rxL4CksumBad : Bool) :
    Packet where
  featureArcIndex := 0
  rxIeee1588Ptp := true
  rxL4CksumBad := rxL4CksumBad
  timestamp := 1
  l4ChecksumComputed := true
  l4ChecksumCorrect := true
  offloadUdpCksum := false
  udp := some
    { payloadLength := 62, length := 62, dstPort := ptpEvent, checksum, header := syncMessage 0
      others, others_pos }

def roomy : LoopEnv where
  dual _ := true
  stale _ := false

/-- The second packet after one with a bad checksum is not stamped. -/
theorem decisions_not_as_alone : let pmp := { softwareClock 9 with rxChecksumOffloadCapa := true }
    let packets := [true, false, false, false].map (syncPacket 1 (by decide) 0xfffe)
    (ptptcNodeInline (fun _ _ => 0) pmp roomy packets).map Outcome.decision =
        [(false, false, false), (false, false, false), (false, true, true), (false, true, true)] ∧
      packets.flatMap (fun p =>
          (ptptcNodeInline (fun _ _ => 0) pmp roomy [p]).map Outcome.decision) =
        [(false, false, false), (false, true, true), (false, true, true), (false, true, true)] := by
  decide +kernel

/-- A packet alone is stamped with the old checksum in the sum. -/
theorem checksum_not_valid : let p := syncPacket 1 (by decide) 0xfffe false
    (∀ udp, p.udp = some udp → udp.Valid) ∧
      ∃ outcome ∈ ptptcNodeInline (fun _ _ => 0) (softwareClock 9) roomy [p],
        outcome.rewritten = true ∧ ∃ udp, outcome.udp = some udp ∧ ¬ udp.Valid := by
  refine ⟨?_, _, mem_singleton_self _, by decide +kernel, _, rfl, ?_⟩
  · rintro udp ⟨⟩
    unfold Udp.Valid
    decide +kernel
  · unfold Udp.Valid
    decide +kernel

/-- A checksum of all ones, the form of zero that UDP sends. -/
theorem checksum_valid_of_all_ones :
    let outcomes := ptptcNodeInline (fun _ _ => 0) (softwareClock 9) roomy
      [syncPacket 0xffff (by decide) 0xffff false]
    (outcomes.map Outcome.rewritten = [true]) ∧ ∀ outcome ∈ outcomes, outcome.rewritten = true →
        ∀ udp, outcome.udp = some udp → udp.Valid := by
  refine ⟨by decide +kernel, (checksums_valid_iff roomy _ ?_).mpr ?_⟩
  · intro p isPacket _ isUdp
    cases mem_singleton.mp isPacket
    cases isUdp
    unfold Udp.Valid
    decide +kernel
  · intro _ isTurn _ rewrites
    cases mem_singleton.mp isTurn
    cases rewrites
    decide +kernel

end Terragraph.Ptptc
