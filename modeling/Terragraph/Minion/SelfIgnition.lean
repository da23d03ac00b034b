/-
Module: Terragraph.Minion.SelfIgnition
Purpose: The slots in which the minion's `IgnitionApp` ignites links without the controller.
Trusted boundary: human-reviewed embedding of `selfIgnite`, which reads the GPS clock once; there
  are candidates and colors, by whose numbers the source divides without a check
Main exports: selfIgnite, ignited_in_slot_iff
-/
import Terragraph.Lib.AssocList
import Terragraph.Lib.Guarded

namespace Terragraph.Minion.SelfIgnition

open AssocList

/-- The flags `distributed_ignition_*`. -/
structure Flags where
  cooldownDurationMs : Nat := 5000
  maxOffsetMs : Nat := 1000
  attemptsBeforeBackoff : Int := 3
  maxAttempts : Int := 18

structure SetLinkStatus where
  initiatorMac : String
  responderMac : String

/-- `DistributedIgnitionResponderState`, with times in milliseconds. -/
structure ResponderState where
  numAttempts : Nat := 0
  attemptTs : Option Nat := none
  cooldownDuration : Option Nat := none
  disabled : Bool := false

structure IgnitionApp where
  enabled : Bool := true
  currResponderMac : String := ""
  ignitedNbrs : List String := []
  linkCandidates : List SetLinkStatus
  linkIterationIndex : Nat := 0
  responderState : List (String × ResponderState) := []

/-- What a call of `selfIgnite` reads: the clocks in milliseconds, the configuration, and whether
an extra boundary duration is drawn. -/
structure Inputs where
  gpsNow : Option Nat
  now : Nat
  numColors : Nat
  color : String → Option Int
  extra : Bool

variable (flags : Flags) (inputs : Inputs) (app : IgnitionApp)

def getTimeToNextIgnitionBoundary (gpsNow : Nat) : Nat :=
  flags.cooldownDurationMs - gpsNow % flags.cooldownDurationMs

/-- The time to the next boundary that is not skipped. -/
def waitTime (gpsNow : Nat) : Nat :=
  let waitTime := getTimeToNextIgnitionBoundary flags gpsNow
  if waitTime < flags.cooldownDurationMs / 6 then waitTime + flags.cooldownDurationMs else waitTime

/-- The length of a boundary in seconds. -/
def boundaryDuration : Nat := flags.cooldownDurationMs / 1000 * inputs.numColors

def ignitionIndex (gpsNow : Nat) : Nat :=
  gpsNow / 1000 % boundaryDuration flags inputs / (flags.cooldownDurationMs / 1000)

def ResponderState.available (now : Nat) (state : ResponderState) : Bool :=
  !state.disabled ∧ state.numAttempts < flags.maxAttempts ∧
    ∀ attemptTs ∈ state.attemptTs, ∀ cooldown ∈ state.cooldownDuration, attemptTs + cooldown ≤ now

def eligible (gpsNow : Nat) (candidate : SetLinkStatus) : Bool :=
  candidate.responderMac ∉ app.ignitedNbrs ∧
    inputs.color candidate.initiatorMac = some (ignitionIndex flags inputs gpsNow : Int) ∧
    (find candidate.responderMac app.responderState).all (·.available flags inputs.now)

def ResponderState.attempt (state : ResponderState) : ResponderState :=
  let duration := 1000 * boundaryDuration flags inputs
  { state with
    numAttempts := state.numAttempts + 1
    attemptTs := some inputs.now
    cooldownDuration := if flags.attemptsBeforeBackoff ≤ state.numAttempts then
        some (state.cooldownDuration.elim duration (2 * ·) + if inputs.extra then duration else 0)
      else state.cooldownDuration }

/-- `selfIgnite`, with the link for which `handleSetLinkUpReq` is called.  The loop starts at the
candidate with the current index.  With no candidate or no color the source divides by zero. -/
def selfIgnite : IgnitionApp × Option SetLinkStatus :=
  match inputs.gpsNow with
  | none => (app, none)
  | some gpsNow =>
    if ¬ app.enabled ∨ flags.maxOffsetMs <
        ((flags.cooldownDurationMs : Int) - waitTime flags gpsNow).natAbs ∨
        app.currResponderMac ≠ "" then (app, none)
    else
      let index := (app.linkIterationIndex + 1) % app.linkCandidates.length
      match (app.linkCandidates.rotate app.linkIterationIndex).find?
          (eligible flags inputs app gpsNow) with
      | none => ({ app with linkIterationIndex := index }, none)
      | some link =>
        let states := upsert {} link.responderMac (·.attempt flags inputs) app.responderState
        ({ app with linkIterationIndex := index, responderState := states }, some link)

/-- The time is close to the boundary with the given number. -/
def AtBoundary (gpsNow k : Nat) : Prop :=
  gpsNow ≤ k * flags.cooldownDurationMs + flags.maxOffsetMs ∧
    k * flags.cooldownDurationMs ≤ gpsNow + flags.maxOffsetMs

/-- The next boundary is close, and it is the one that is skipped. -/
def Early (gpsNow : Nat) : Prop :=
  let left := flags.cooldownDurationMs - gpsNow % flags.cooldownDurationMs
  left < flags.cooldownDurationMs / 6 ∧ left ≤ flags.maxOffsetMs

/-- At this time every ignited link is ignited at a boundary of its radio's slot. -/
def InSlot (gpsNow numColors : Nat) : Prop :=
  ∀ inputs app link color, inputs.gpsNow = some gpsNow → inputs.numColors = numColors →
    (selfIgnite flags inputs app).2 = some link → inputs.color link.initiatorMac = some color →
    ∃ k : Nat, AtBoundary flags gpsNow k ∧ (k % numColors : Nat) = color

variable {flags inputs app} {gpsNow : Nat}

theorem selfIgnite_some {link : SetLinkStatus} (reads : inputs.gpsNow = some gpsNow)
    (ignited : (selfIgnite flags inputs app).2 = some link) :
    ((flags.cooldownDurationMs : Int) - waitTime flags gpsNow).natAbs ≤ flags.maxOffsetMs ∧
      inputs.color link.initiatorMac = some (ignitionIndex flags inputs gpsNow : Int) := by
  rw [selfIgnite, reads] at ignited
  simp only at ignited
  split at ignited
  · cases ignited
  · split at ignited
    · cases ignited
    · next found =>
      cases ignited
      have isEligible := List.find?_some found
      simp only [eligible, decide_eq_true_eq] at isEligible
      exact ⟨by omega, isEligible.2.1⟩

theorem ignitionIndex_eq (whole : 1000 ∣ flags.cooldownDurationMs) :
    ignitionIndex flags inputs gpsNow = gpsNow / flags.cooldownDurationMs % inputs.numColors := by
  obtain ⟨_, isWhole⟩ := whole
  rw [ignitionIndex, boundaryDuration, isWhole, Nat.mul_div_cancel_left _ (by decide),
    Nat.mod_mul_right_div_self, Nat.div_div_eq_div_mul]

theorem atBoundary_div (late : gpsNow % flags.cooldownDurationMs ≤ flags.maxOffsetMs) :
    AtBoundary flags gpsNow (gpsNow / flags.cooldownDurationMs) := by
  have time := Nat.div_add_mod' gpsNow flags.cooldownDurationMs
  exact ⟨by omega, by omega⟩

theorem atBoundary_iff_of_early (wide : 2 * flags.maxOffsetMs < flags.cooldownDurationMs)
    (early : Early flags gpsNow) {k : Nat} :
    AtBoundary flags gpsNow k ↔ k = gpsNow / flags.cooldownDurationMs + 1 := by
  have time := Nat.div_add_mod' gpsNow flags.cooldownDurationMs
  have less := Nat.mod_lt gpsNow (Nat.zero_lt_of_lt wide)
  have close := early.2
  constructor
  · rintro ⟨late, soon⟩
    by_contra other
    rcases Nat.lt_or_gt_of_ne other with lower | upper
    · have before := Nat.mul_le_mul_right flags.cooldownDurationMs (Nat.le_of_lt_succ lower)
      omega
    · have after := Nat.mul_le_mul_right flags.cooldownDurationMs upper
      rw [Nat.succ_mul, Nat.succ_mul] at after
      omega
  · rintro rfl
    rw [AtBoundary, Nat.succ_mul]
    omega

/-- The radio of the only candidate has the colour of the current slot. -/
theorem selfIgnite_early (early : Early flags gpsNow) (numColors : Nat) :
    ∃ inputs, inputs.gpsNow = some gpsNow ∧ inputs.numColors = numColors ∧
      ∃ app link, (selfIgnite flags inputs app).2 = some link := by
  have near : ¬ flags.maxOffsetMs <
      ((flags.cooldownDurationMs : Int) - waitTime flags gpsNow).natAbs := by
    have close := early.2
    rw [waitTime, getTimeToNextIgnitionBoundary, if_pos early.1]
    omega
  let slot := ignitionIndex flags ⟨none, 0, numColors, fun _ => none, false⟩ gpsNow
  refine ⟨⟨some gpsNow, 0, numColors, fun _ => some slot, false⟩, rfl, rfl,
    { linkCandidates := [⟨"", ""⟩] }, ⟨"", ""⟩, ?_⟩
  simp [selfIgnite, near, eligible, find, slot, ignitionIndex, boundaryDuration]

/-- Links are ignited only in the slot of their radio, whatever the candidates are, exactly if
there is one slot or the next boundary is not one that is close and skipped. -/
theorem ignited_in_slot_iff (whole : 1000 ∣ flags.cooldownDurationMs)
    (wide : 2 * flags.maxOffsetMs < flags.cooldownDurationMs) (gpsNow numColors : Nat) :
    InSlot flags gpsNow numColors ↔ numColors = 1 ∨ ¬ Early flags gpsNow := by
  constructor
  · intro inSlot
    by_contra both
    obtain ⟨several, early⟩ := not_or.mp both
    rw [not_not] at early
    obtain ⟨inputs, reads, rfl, app, link, ignited⟩ := selfIgnite_early early numColors
    obtain ⟨_, isColor⟩ := selfIgnite_some reads ignited
    obtain ⟨k, near, slot⟩ := inSlot inputs app link _ reads rfl ignited isColor
    rw [ignitionIndex_eq whole, Int.natCast_inj, (atBoundary_iff_of_early wide early).mp near]
      at slot
    have one := Nat.sub_mod_eq_zero_of_mod_eq slot
    rw [Nat.add_sub_cancel_left, Nat.one_mod_eq_zero_iff] at one
    exact several one
  · rintro holds _ _ _ _ reads rfl ignited isColor
    obtain ⟨near, sameColor⟩ := selfIgnite_some reads ignited
    cases sameColor.symm.trans isColor
    rw [ignitionIndex_eq whole]
    rw [waitTime, getTimeToNextIgnitionBoundary] at near
    split at near
    · next skipped =>
      have early : Early flags gpsNow := ⟨skipped, by omega⟩
      have one := holds.resolve_right (not_not.mpr early)
      refine ⟨_, (atBoundary_iff_of_early wide early).mpr rfl, ?_⟩
      rw [one, Nat.mod_one, Nat.mod_one]
    · have less := Nat.mod_lt gpsNow (Nat.zero_lt_of_lt wide)
      exact ⟨_, atBoundary_div (by omega), rfl⟩

/-- Half a second late, with the default flags and two slots. -/
theorem ignited_in_slot_late : InSlot {} 500 2 :=
  (ignited_in_slot_iff (by decide) (by decide) 500 2).mpr (.inr (by simp [Early]))

/-- Half a second early, a radio of the slot before is the initiator. -/
theorem ignited_in_slot_fails : ¬ InSlot {} 4500 2 := by
  intro inSlot
  obtain ⟨k, near, _⟩ := inSlot ⟨some 4500, 0, 2, fun _ => some 0, false⟩
    { linkCandidates := [⟨"a", "b"⟩] } ⟨"a", "b"⟩ 0 rfl rfl rfl rfl
  simp only [AtBoundary] at near
  omega

end Terragraph.Minion.SelfIgnition
