/-
Module: Terragraph.Ptptc.GpsSync
Purpose: The GPS clock discipline of gps_sync.c, and how reports of gpsd are cut into lines.
Trusted boundary: the registers hold what is written; signed arithmetic wraps; the number of a
  socket is not 0
Main exports: handlePps, offset_register_follows, reported_eq_lines_iff
-/
import Terragraph.Lib.Transition

namespace Terragraph.Ptptc

open List

/-! ### The clock discipline -/

/-- The timer registers, `sockfd` and the static variables of `handle_pps`. -/
structure GpsSync where
  ppsOffset : Int64
  ppsAddend : UInt32
  connected : Bool := false
  firstTime : Bool := true
  lastOffset : Int64 := 0
  syncedOffset : Int64 := 0
  offsetAdjustNs : Int64 := 0
  lastOffsetAdjust : Int64 := 0

def abs (a : Int64) : Int64 := if a < 0 then -a else a

def getDriftScaleFactor (driftNs : Int64) (addend : UInt32) : UInt32 :=
  let observedFreq := 1000000000 + driftNs
  if observedFreq = 0 then addend
  else (addend.toUInt64.toInt64 * 1000000000 / observedFreq).toUInt64.toUInt32

namespace GpsSync

/-- With the `offset_adjust_ns` of the phase correction, where one is applied; a latched time of -1
is a time that could not be read. -/
def handlePps (ppsNsecs latched : Int64) (s : GpsSync) : GpsSync × Option Int64 :=
  if s.firstTime then ({ s with firstTime := false }, none)
  else if latched = -1 then (s, none)
  else
    let offset := ppsNsecs - latched
    let offsetDiff := offset - s.lastOffset
    if 100000 < abs offsetDiff then ({ s with lastOffset := offset, offsetAdjustNs := 0 }, none)
    else
      let (alphaScale, alphaFreq, alphaOffset) : Int64 × Int64 × Int64 :=
        if 1000 < abs offset ∨ 1000 < abs s.offsetAdjustNs then (1, 1, 1) else (256, 26, 77)
      let ffoAdjustPpb := -1 * alphaFreq * (offsetDiff + s.offsetAdjustNs) / alphaScale
      let newAddend := max 3067800000 (getDriftScaleFactor ffoAdjustPpb s.ppsAddend)
      let s := { s with ppsAddend := min 3067899999 newAddend, lastOffset := offset }
      if 900000000 < ppsNsecs - s.lastOffsetAdjust then
        let adjust := alphaOffset * offset / alphaScale
        ({ s with
            offsetAdjustNs := adjust, lastOffsetAdjust := ppsNsecs,
            ppsOffset := s.syncedOffset + adjust, syncedOffset := s.syncedOffset + adjust },
          some adjust)
      else ({ s with offsetAdjustNs := 0 }, none)

def resetTimerDefaults (s : GpsSync) : GpsSync := { s with ppsOffset := 0, ppsAddend := 0xb6db6db7 }

inductive Event where
  | enable (reachable : Bool)
  | disable
  | pps (ppsNsecs latched : Int64)

/-- Reports arrive on the socket, so while there is one. -/
def exec : Event → GpsSync → Option GpsSync
  | .enable reachable, s =>
    if s.connected then s else some { s.resetTimerDefaults with connected := reachable }
  | .disable, s => some { s.resetTimerDefaults with connected := false }
  | .pps ppsNsecs latched, s => if s.connected then some (s.handlePps ppsNsecs latched).1 else none

def Start (s : GpsSync) : Prop := ∃ offset addend, s = { ppsOffset := offset, ppsAddend := addend }

def EnabledUnsynced (s : GpsSync) : Event → Prop
  | .enable _ => s.connected ∨ s.syncedOffset = 0
  | _ => True

theorem handlePps_offsets {ppsNsecs latched : Int64} {s s' : GpsSync} {adjust : Option Int64}
    (handled : s.handlePps ppsNsecs latched = (s', adjust)) :
    s'.ppsOffset = adjust.elim s.ppsOffset (s.syncedOffset + ·) ∧
      s'.syncedOffset = adjust.elim s.syncedOffset (s.syncedOffset + ·) := by
  revert handled
  fun_cases handlePps ppsNsecs latched s <;> rintro ⟨⟩ <;> exact ⟨rfl, rfl⟩

theorem synced_of_step {s s' : GpsSync} {event : Event}
    (synced : s.connected → s.syncedOffset = s.ppsOffset) (allowed : EnabledUnsynced s event)
    (taken : exec event s = some s') (enabled : s'.connected) :
    s'.syncedOffset = s'.ppsOffset := by
  cases event with
  | enable =>
    by_cases connected : s.connected <;> simp only [exec, connected] at taken <;> cases taken
    · exact synced connected
    · exact allowed.resolve_left connected
  | disable =>
    cases taken
    cases enabled
  | pps ppsNsecs latched =>
    by_cases connected : s.connected <;> simp only [exec, connected] at taken <;> cases taken
    obtain ⟨register, copy⟩ := handlePps_offsets (Prod.eta (s.handlePps ppsNsecs latched)).symm
    rw [register, copy, synced connected]

/-- Where every session starts with nothing corrected before it, the software copy is the register
and each correction is added to the register. -/
theorem offset_register_follows {s : GpsSync}
    (reached : Transition.Reaches Start (fun s event s' => exec event s = some s')
      EnabledUnsynced s) (enabled : s.connected) :
    s.syncedOffset = s.ppsOffset ∧ ∀ ppsNsecs latched adjust,
      (s.handlePps ppsNsecs latched).2 = some adjust →
        (s.handlePps ppsNsecs latched).1.ppsOffset = s.ppsOffset + adjust := by
  have synced := reached.invariant (fun s => s.connected → s.syncedOffset = s.ppsOffset)
    (by rintro s ⟨offset, addend, rfl⟩ connected; cases connected)
    (fun s _ _ => synced_of_step)
  refine ⟨synced enabled, fun ppsNsecs latched _ applied => ?_⟩
  have moved := (handlePps_offsets (Prod.eta (s.handlePps ppsNsecs latched)).symm).1
  rwa [applied, synced enabled] at moved

/-- After two pulses of a session the register holds the first correction, and the next is added. -/
theorem offset_register_follows_corrections :
    ∃ s, Transition.replay exec [.enable true, .pps 0 0, .pps 1000000000 999995000]
        { ppsOffset := 7, ppsAddend := 0 } = some s ∧ s.syncedOffset = s.ppsOffset ∧
      s.ppsOffset = 5000 ∧ (s.handlePps 2000000000 1999999000).2 = some 1000 ∧
      (s.handlePps 2000000000 1999999000).1.ppsOffset = 5000 + 1000 := by
  have reached : Transition.Reaches Start (fun s event s' => exec event s = some s')
      EnabledUnsynced _ :=
    .step (.step (.step (.start ⟨7, 0, rfl⟩)
      (show EnabledUnsynced _ (.enable true) from .inr rfl) rfl)
      (show EnabledUnsynced _ (.pps 0 0) from trivial) rfl)
      (show EnabledUnsynced _ (.pps 1000000000 999995000) from trivial) rfl
  have follows := offset_register_follows reached rfl
  exact ⟨_, rfl, follows.1, by decide, by decide, follows.2 _ _ 1000 (by decide)⟩

/-- The second session adds to the reset register what the first had added already. -/
theorem stale_offset_applied :
    ∃ s, Transition.replay exec [.enable true, .pps 0 0, .pps 1000000000 999995000, .disable,
        .enable true] { ppsOffset := 0, ppsAddend := 0 } = some s ∧ s.connected ∧
      s.ppsOffset = 0 ∧ (s.handlePps 2000000000 1999995000).2 = some 5000 ∧
      (s.handlePps 2000000000 1999995000).1.ppsOffset = 10000 :=
  ⟨_, rfl, by decide⟩

end GpsSync

/-! ### Reports -/

/-- The non-empty strings between newlines; there is no NUL. -/
def strtok (buf : List UInt8) : List (List UInt8) := (buf.splitOnP (· == 10)).filter (· ≠ [])

/-- `_gps_report_ready` after `recv`: the strings that are parsed, and what is held after the last
newline. -/
def gpsReportReady (held chunk : List UInt8) : List (List UInt8) × List UInt8 :=
  let parts := (held ++ chunk).splitOnP (· == 10)
  if 10 ∈ held ++ chunk then (parts.dropLast.filter (· ≠ []), parts.getLastD [])
  else (strtok (held ++ chunk), [])

def reported (held : List UInt8) : List (List UInt8) → List (List UInt8)
  | [] => []
  | chunk :: rest =>
    (gpsReportReady held chunk).1 ++ reported (gpsReportReady held chunk).2 rest

/-- A buffer without a newline is empty or lacks only that. -/
def CutAtLines (held : List UInt8) : List (List UInt8) → Prop
  | [] => True
  | chunk :: rest => (10 ∉ held ++ chunk → held ++ chunk = [] ∨ rest.flatten.head? = some 10) ∧
      CutAtLines (gpsReportReady held chunk).2 rest

theorem splitOnP_line {line : List UInt8} (inLine : 10 ∉ line) : line.splitOnP (· == 10) = [line] :=
  splitOnP_eq_singleton (by simpa using fun x isIn => ne_of_mem_of_not_mem isIn inLine)

theorem strtok_append (first second : List UInt8) :
    strtok (first ++ 10 :: second) = strtok first ++ strtok second := by
  rw [strtok, splitOnP_append_cons _ _ (by rfl), filter_append]
  rfl

theorem gpsReportReady_append {held chunk first part : List UInt8}
    (split : held ++ chunk = first ++ 10 :: part) (inLine : 10 ∉ part) :
    gpsReportReady held chunk = (strtok first, part) := by
  simp [gpsReportReady, split, splitOnP_append_cons, splitOnP_line inLine, strtok]

theorem reported_eq_iff (chunks : List (List UInt8)) (held : List UInt8) (inLine : 10 ∉ held)
    (ended : ∀ before last, held ++ chunks.flatten = before ++ [last] → last = 10) :
    reported held chunks = strtok (held ++ chunks.flatten) ↔ CutAtLines held chunks := by
  induction chunks generalizing held with
  | nil =>
    rcases eq_nil_or_concat held with rfl | ⟨before, last, rfl⟩
    · exact ⟨fun _ => trivial, fun _ => rfl⟩
    · cases ended before last (by simp)
      simp at inLine
  | cons chunk rest ih =>
    rw [flatten_cons, ← append_assoc] at ended ⊢
    rw [reported, CutAtLines]
    by_cases newline : 10 ∈ held ++ chunk
    · obtain ⟨part, first, split, inPart⟩ := eq_append_cons_of_mem (mem_reverse.mpr newline)
      replace split : held ++ chunk = first.reverse ++ 10 :: part.reverse := by
        simpa using congrArg reverse split
      have inPart : 10 ∉ part.reverse := by simpa using inPart
      have later := ih part.reverse inPart fun before last same =>
        ended (first.reverse ++ 10 :: before) last (by simp [split, same])
      rw [gpsReportReady_append split inPart, split, append_assoc, cons_append, strtok_append,
        append_right_inj, later]
      simp
    · have ready : gpsReportReady held chunk = (strtok (held ++ chunk), []) := if_neg newline
      generalize held ++ chunk = buf at *
      have later := ih [] not_mem_nil fun before last same =>
        ended (buf ++ before) last (by simpa using same)
      rw [ready]
      by_cases empty : buf = []
      · simpa [empty, strtok] using later
      -- the rest of the line comes with the next buffers
      have inRest : 10 ∈ rest.flatten := by
        obtain ⟨before, last, isLast⟩ :=
          (eq_nil_or_concat (buf ++ rest.flatten)).resolve_left (by simp [empty])
        cases ended before last (by simpa using isLast)
        have := isLast ▸ (by simp : 10 ∈ before.concat 10)
        exact (mem_append.mp this).resolve_left newline
      obtain ⟨line, after, isRest, inLine⟩ := eq_append_cons_of_mem inRest
      rw [isRest] at later ⊢
      rw [← append_assoc, strtok_append, ← later]
      cases line with
      | nil =>
        rw [nil_append, strtok_append [] after]
        simp [strtok]
      | cons x =>
        have apart : x ≠ 10 := fun same => inLine (same ▸ mem_cons_self)
        simp_all [strtok, splitOnP_line]

/-- The strings are the lines if and only if a buffer without a newline lacks only that. -/
theorem reported_eq_lines_iff {chunks : List (List UInt8)}
    (ended : chunks.flatten.getLast? = some 10) :
    reported [] chunks = strtok chunks.flatten ↔ CutAtLines [] chunks :=
  reported_eq_iff chunks [] not_mem_nil fun _ _ _ => by simp_all

/-- A line and, in the next chunk, its end. -/
theorem reported_eq_lines_of_one : reported [] [[97, 98], [10]] = [[97, 98]] :=
  (reported_eq_lines_iff rfl).mpr ⟨fun _ => .inr rfl, nofun, trivial⟩

/-- Half a line that arrives alone is taken for a line, and so is the rest. -/
theorem half_line_reported :
    reported [] [[97], [98, 10]] = [[97], [98]] ∧ strtok [97, 98, 10] = [[97, 98]] := by
  decide

end Terragraph.Ptptc
