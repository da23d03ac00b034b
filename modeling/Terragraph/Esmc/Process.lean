/-
Module: Terragraph.Esmc.Process
Purpose: The SyncE message channel of the `esmc` plugin: the choice of the clock source, and the
  ESMC frames that are sent.
Trusted boundary: none
Main exports: Bounded.step, esmc_frames_safe
-/
import Terragraph.Lib.Transition

namespace Terragraph.Esmc

open Transition List

/-! An index of an interface is `none` where the source has `~0` or `-1`. -/

/-- The interfaces of the router, and the options that are not changed at runtime. -/
structure Config where
  enabled : Bool
  enableTgInput : Bool
  enableTgOutput : Bool
  /-- The `sw_if_index` of `vnet_get_sup_hw_interface`. -/
  supHw : Nat → Nat
  /-- The hardware interfaces with the prefix `vpp-terra`. -/
  tgInterfaces : List Nat
  tg_supHw : ∀ hw ∈ tgInterfaces, supHw hw = hw

inductive PllMode where
  | nco
  | reflockSynce
  deriving DecidableEq

/-- `esmc_main_t`, with the SSM of every interface in `ifRxState`. -/
structure EsmcMain where
  inputIndex : Option Nat
  outputIndex : Option Nat
  ifRxState : List Nat := []
  selected : Option Nat := none
  programmed : Option Nat := none
  ssm : Nat := 0
  pllMode : Option PllMode := none
  pllLocked : Bool := false
  numTxPdu1s : Nat := 0

structure Frame where
  swIfIndex : Nat
  ssm : Nat
  event : Bool

/-- `ESMC_SSM_QL_UNUSED` -/
def qlUnused : Nat := 0

/-- `ESMC_SSM_QL_DNU` -/
def qlDnu : Nat := 15

def kEsmcSsmPreference : List Nat := [0, 0, 5, 0, 4, 0, 0, 0, 3, 0, 0, 2, 0, 0, 0, 1]

def preference (ssm : Nat) : Nat := kEsmcSsmPreference.getD ssm 0

variable (config : Config)

/-- `esmc_rx`. A changed SSM leads to an update, which comes later. -/
def esmcRx (swIfIndex ssm : Nat) (em : EsmcMain) : EsmcMain :=
  if some swIfIndex = em.inputIndex ∨
      config.enableTgInput ∧ config.supHw swIfIndex ∈ config.tgInterfaces then
    let states := em.ifRxState ++ replicate (swIfIndex + 1 - em.ifRxState.length) qlUnused
    { em with ifRxState := states.set swIfIndex ssm }
  else
    em

/-- `esmc_tx` on an interface, with `QL-DNU` on the selected one, and there not for events. -/
def emit (em : EsmcMain) (ssm : Nat) (event : Bool) (swIfIndex : Nat) : List Frame :=
  if some swIfIndex = em.selected then
    if event then [] else [⟨config.supHw swIfIndex, qlDnu, event⟩]
  else
    [⟨config.supHw swIfIndex, ssm, event⟩]

/-- The frames of a broadcast; `ESMC_MAX_PDUS_PER_INTERVAL` is 10. -/
def broadcastFrames (em : EsmcMain) (ssm : Nat) (event : Bool) (source : Option Nat) : List Frame :=
  if 10 ≤ em.numTxPdu1s then
    []
  else
    let onTg := if config.enableTgOutput then config.tgInterfaces.filter fun hw =>
      some hw ≠ source ∧ some hw ≠ em.outputIndex else []
    (em.outputIndex.toList ++ onTg).flatMap (emit config em ssm event)

def esmcTxBroadcast (em : EsmcMain) (ssm : Nat) (event : Bool) (source : Option Nat) :
    EsmcMain × List Frame :=
  let frames := broadcastFrames config em ssm event source
  ({ em with numTxPdu1s := em.numTxPdu1s + if frames.isEmpty then 0 else 1 }, frames)

/-- The best SSM and its interface. -/
def best (states : List Nat) : Nat × Option Nat :=
  states.zipIdx.foldl (fun best state =>
    if state.1 ≠ qlUnused ∧ preference best.1 < preference state.1 then (state.1, some state.2)
    else best) (qlUnused, none)

/-- `esmc_update` until it compares the SSM; the times only say which interfaces have timed out. -/
def choose (timedOut : Nat → Bool) (em : EsmcMain) : EsmcMain × Nat :=
  let states := em.ifRxState.mapIdx fun i ssm =>
    if ssm ≠ qlUnused ∧ timedOut i ∧ ssm ≠ qlDnu then qlDnu else ssm
  let (bestSsm, bestIndex) := best states
  let (newMode, newIndex) :=
    if bestSsm = qlUnused ∨ bestSsm = qlDnu then (PllMode.nco, none)
    else if bestIndex = em.inputIndex then (.reflockSynce, none)
    else (.nco, bestIndex)
  let kept := bestIndex = em.selected ∧ newIndex = em.programmed ∧ some newMode = em.pllMode
  let locked := em.pllLocked && decide kept
  ({ em with
      ifRxState := states
      selected := bestIndex
      programmed := newIndex
      pllMode := some newMode
      pllLocked := locked },
    if locked then bestSsm else qlDnu)

/-- `esmc_update`, without a source interface for the heartbeat. -/
def esmcUpdate (source : Option Nat) (timedOut : Nat → Bool) (em : EsmcMain) :
    EsmcMain × List Frame :=
  let (em', ssm) := choose timedOut em
  if ssm ≠ em.ssm then
    esmcTxBroadcast config { em' with ssm := ssm } ssm true source
  else if source = none ∧ ssm ≠ qlUnused then
    esmcTxBroadcast config em' ssm false none
  else
    (em', [])

/-- What `esmc_input` and `esmc_process_fn` wait for. -/
inductive Event where
  | rx (swIfIndex v : Nat)
  | rxCallback (swIfIndex : Nat) (timedOut : Nat → Bool)
  | heartbeat (locked : Bool) (timedOut : Nat → Bool)
  /-- `esmc_post_init` finds the configured interfaces. -/
  | postInit (inputIndex outputIndex : Option Nat)

def exec (em : EsmcMain) : Event → EsmcMain × List Frame
  | .rx swIfIndex v => (esmcRx config swIfIndex (v % 16) em, [])
  | .rxCallback swIfIndex timedOut => esmcUpdate config (some swIfIndex) timedOut em
  | .heartbeat locked timedOut =>
    if config.enabled then
      esmcUpdate config none timedOut { em with numTxPdu1s := 0, pllLocked := locked }
    else
      (em, [])
  | .postInit inputIndex outputIndex => ({ em with inputIndex, outputIndex }, [])

/-! ### Runs -/

/-- Whether a heartbeat has read the PLL as locked since the last change of the selected or
programmed interface or the PLL mode, and the broadcasts with frames since the last heartbeat. -/
structure History where
  lockRead : Bool := false
  broadcasts : Nat := 0

def History.next (history : History) (em em' : EsmcMain) (frames : List Frame) : History where
  lockRead := history.lockRead && decide (em'.selected = em.selected ∧
    em'.programmed = em.programmed ∧ em'.pllMode = em.pllMode)
  broadcasts := history.broadcasts + if frames.isEmpty then 0 else 1

def History.read (history : History) : Event → History
  | .heartbeat locked _ => ⟨history.lockRead || (config.enabled && locked), 0⟩
  | _ => history

def HardwareOutput (em : EsmcMain) : Prop :=
  ∀ output, em.outputIndex = some output → config.supHw output = output

variable {config} {em em' : EsmcMain} {frames : List Frame} {history : History}

def StaysLocked (em em' : EsmcMain) : Prop :=
  em.pllLocked = true ∧ em'.selected = em.selected ∧ em'.programmed = em.programmed ∧
    em'.pllMode = em.pllMode

/-- What an update sends, and how it leads to the next state. -/
structure Sent (config : Config) (em em' : EsmcMain) (frames : List Frame) : Prop where
  locked : em'.pllLocked = true → StaysLocked em em'
  counted : em'.numTxPdu1s = em.numTxPdu1s + if frames.isEmpty then 0 else 1
  limited : em.numTxPdu1s ≤ 10 → em'.numTxPdu1s ≤ 10
  onSelected : HardwareOutput config em → ∀ frame ∈ frames, some frame.swIfIndex = em'.selected →
    frame.ssm = qlDnu
  unlocked : ∀ frame ∈ frames, frame.ssm ≠ qlDnu → em'.pllLocked = true

theorem mem_broadcastFrames {ssm : Nat} {event : Bool} {source : Option Nat} {frame : Frame}
    (member : frame ∈ broadcastFrames config em ssm event source) :
    em.numTxPdu1s < 10 ∧ (frame.ssm = qlDnu ∨ frame.ssm = ssm) ∧
      (HardwareOutput config em → some frame.swIfIndex = em.selected → frame.ssm = qlDnu) := by
  rw [broadcastFrames] at member
  split at member
  · cases member
  · refine ⟨by omega, ?_⟩
    obtain ⟨swIfIndex, chosen, member⟩ := mem_flatMap.mp member
    have isHw : HardwareOutput config em → config.supHw swIfIndex = swIfIndex := by
      intro hardware
      rcases mem_append.mp chosen with isOutput | isTg
      · exact hardware swIfIndex (Option.mem_toList.mp isOutput)
      · split at isTg
        · exact config.tg_supHw swIfIndex (mem_of_mem_filter isTg)
        · cases isTg
    rw [emit] at member
    split at member
    · split at member
      · cases member
      · rw [mem_singleton.mp member]
        exact ⟨.inl rfl, fun _ _ => rfl⟩
    · next apart =>
      rw [mem_singleton.mp member]
      exact ⟨.inr rfl, fun hardware same => absurd (isHw hardware ▸ same) apart⟩

theorem sent_broadcast {chosen : EsmcMain} {ssm : Nat} (locked : chosen.pllLocked = true →
    StaysLocked em chosen) (unlocked : ssm ≠ qlDnu → chosen.pllLocked = true)
    (sameCount : chosen.numTxPdu1s = em.numTxPdu1s)
    (sameOutput : chosen.outputIndex = em.outputIndex) (event : Bool) (source : Option Nat) :
    Sent config em (esmcTxBroadcast config chosen ssm event source).1
      (esmcTxBroadcast config chosen ssm event source).2 where
  locked := locked
  counted := by rw [← sameCount]; rfl
  limited bound := by
    simp only [esmcTxBroadcast]
    cases isFrames : broadcastFrames config chosen ssm event source with
    | nil => simpa [sameCount] using bound
    | cons frame =>
      have room := (mem_broadcastFrames (isFrames ▸ mem_cons_self : frame ∈ _)).1
      simp only [isEmpty_cons, Bool.false_eq_true, if_false]
      omega
  onSelected hardware frame member :=
    (mem_broadcastFrames member).2.2 (by rwa [HardwareOutput, sameOutput])
  unlocked frame member other := unlocked fun isDnu => other <| by
    rcases (mem_broadcastFrames member).2.1 with dnu | same
    · exact dnu
    · exact same.trans isDnu

theorem sent_esmcUpdate (config : Config) (source : Option Nat) (timedOut : Nat → Bool)
    (em : EsmcMain) : Sent config em (esmcUpdate config source timedOut em).1
      (esmcUpdate config source timedOut em).2 := by
  -- the lock is kept only if nothing is changed
  have locked : (choose timedOut em).1.pllLocked = true → StaysLocked em (choose timedOut em).1 := by
    intro locked
    simp only [choose, Bool.and_eq_true, decide_eq_true_eq] at locked
    exact ⟨locked.1, locked.2.1, locked.2.2⟩
  have unlocked : (choose timedOut em).2 ≠ qlDnu → (choose timedOut em).1.pllLocked = true := by
    intro other
    by_contra unlocked
    exact other (if_neg unlocked)
  simp only [esmcUpdate]
  split
  · refine sent_broadcast ?_ ?_ ?_ ?_ true source
    · exact locked
    · exact unlocked
    · rfl
    · rfl
  · split
    · exact sent_broadcast locked unlocked rfl rfl false none
    · exact ⟨locked, rfl, id, by simp, by simp⟩

/-- A lock has been read if the PLL is locked, and the broadcasts are counted. -/
structure Bounded (em : EsmcMain) (history : History) : Prop where
  locked : em.pllLocked = true → history.lockRead = true
  counted : history.broadcasts ≤ em.numTxPdu1s
  limited : em.numTxPdu1s ≤ 10

/-- The selected interface sends only `QL-DNU`, other frames need a lock, at most ten broadcasts. -/
def Safe (em' : EsmcMain) (history : History) (frames : List Frame) : Prop :=
  history.broadcasts ≤ 10 ∧ ∀ frame ∈ frames,
    (some frame.swIfIndex = em'.selected → frame.ssm = qlDnu) ∧
      (frame.ssm ≠ qlDnu → history.lockRead = true)

theorem Bounded.next (bounded : Bounded em history) (sent : Sent config em em' frames) :
    Bounded em' (history.next em em' frames) ∧
      (HardwareOutput config em → Safe em' (history.next em em' frames) frames) := by
  have locked : em'.pllLocked = true → (history.next em em' frames).lockRead = true := by
    intro isLocked
    obtain ⟨wasLocked, same⟩ := sent.locked isLocked
    simp [History.next, bounded.locked wasLocked, same]
  have counted : (history.next em em' frames).broadcasts ≤ em'.numTxPdu1s := by
    rw [sent.counted]
    exact Nat.add_le_add_right bounded.counted _
  have limited := sent.limited bounded.limited
  exact ⟨⟨locked, counted, limited⟩, fun hardware => ⟨Nat.le_trans counted limited, fun frame member =>
    ⟨sent.onSelected hardware frame member, fun other => locked (sent.unlocked frame member other)⟩⟩⟩

/-- One step of the plugin and of the history. -/
def step (config : Config) (s : EsmcMain × History) (event : Event) :
    (EsmcMain × History) × List Frame :=
  let (em', frames) := exec config s.1 event
  ((em', (s.2.read config event).next s.1 em' frames), frames)

theorem sent_nothing (config : Config) (em : EsmcMain) : Sent config em em [] :=
  ⟨fun locked => ⟨locked, rfl, rfl, rfl⟩, rfl, id, by simp, by simp⟩

/-- One event keeps the bounds, and the frames it sends are safe. -/
theorem Bounded.step (bounded : Bounded em history) (event : Event) :
    Bounded (step config (em, history) event).1.1 (step config (em, history) event).1.2 ∧
      (HardwareOutput config em → Safe (step config (em, history) event).1.1
        (step config (em, history) event).1.2 (step config (em, history) event).2) := by
  cases event with
  | rx =>
    simp only [Esmc.step, exec, esmcRx]
    split
    · exact bounded.next ⟨(sent_nothing config em).locked, rfl, id, by simp, by simp⟩
    · exact bounded.next (sent_nothing config em)
  | rxCallback swIfIndex timedOut =>
    exact bounded.next (sent_esmcUpdate config (some swIfIndex) timedOut em)
  | heartbeat locked timedOut =>
    simp only [Esmc.step, exec, History.read]
    split
    · have reset : Bounded { em with numTxPdu1s := 0, pllLocked := locked }
          ⟨history.lockRead || (config.enabled && locked), 0⟩ :=
        ⟨fun _ => by simp_all, Nat.le_refl _, Nat.zero_le _⟩
      exact reset.next (sent_esmcUpdate config none timedOut _)
    · have reset : Bounded em ⟨history.lockRead || (config.enabled && locked), 0⟩ :=
        ⟨fun isLocked => by simp [bounded.locked isLocked], Nat.zero_le _, bounded.limited⟩
      exact reset.next (sent_nothing config em)
  | postInit =>
    exact bounded.next ⟨(sent_nothing config em).locked, rfl, id, by simp, by simp⟩

def Initial (s : EsmcMain × History) : Prop :=
  ∃ inputIndex outputIndex, s = ({ inputIndex, outputIndex }, {})

/-- In every run without a subinterface as the output, all frames are safe. -/
theorem esmc_frames_safe {s : EsmcMain × History}
    (reached : Reaches Initial (fun s event s' => s' = (step config s event).1)
      (fun s _ => HardwareOutput config s.1) s) (hardware : HardwareOutput config s.1)
    (event : Event) :
    Safe (step config s event).1.1 (step config s event).1.2 (step config s event).2 := by
  have bounded : Bounded s.1 s.2 := by
    refine reached.invariant (fun s => Bounded s.1 s.2) ?_ ?_
    · rintro _ ⟨_, _, rfl⟩
      exact ⟨nofun, Nat.le_refl _, Nat.zero_le _⟩
    · rintro s event _ bounded _ rfl
      exact (bounded.step event).1
  exact (bounded.step event).2 hardware

/-- A router with a wired input, and with a subinterface of it. -/
def wired : Config where
  enabled := true
  enableTgInput := false
  enableTgOutput := false
  supHw index := if index = 2 then 1 else index
  tgInterfaces := []
  tg_supHw := by simp

/-- The level of interface 1, which is selected, is sent on the other interface after a lock. -/
theorem wired_frames_safe :
    let s := [.rx 1 2, .rxCallback 1 fun _ => false].foldl
      (fun s event => (step wired s event).1) ({ inputIndex := some 1, outputIndex := some 3 }, {})
    let sent := step wired s (.heartbeat true fun _ => false)
    sent.1.1.selected = some 1 ∧
      (sent.2.map fun frame => (frame.swIfIndex, frame.ssm)) = [(3, 2)] ∧
      Safe sent.1.1 sent.1.2 sent.2 := by
  refine ⟨by decide, by decide, esmc_frames_safe
    (.step (.step (.start ⟨some 1, some 3, rfl⟩) ?_ rfl) ?_ rfl) ?_ _⟩ <;>
  · rintro _ ⟨⟩
    rfl

/-- With a subinterface of the input as output, its frame has the quality level of the interface. -/
theorem loop_through_subinterface :
    let run := fun s events => events.foldl (fun s event => (step wired s event).1) s
    let s := run ({ inputIndex := some 1, outputIndex := some 2 }, {})
      [.rx 1 2, .rxCallback 1 fun _ => false]
    (step wired s (.heartbeat true fun _ => false)).1.1.selected = some 1 ∧
      ((step wired s (.heartbeat true fun _ => false)).2.map fun frame =>
        (frame.swIfIndex, frame.ssm)) = [(1, 2)] := by
  decide

end Terragraph.Esmc
