/-
Module: Terragraph.Stats.NmsPublisher
Purpose: `NmsPublisher`, which queues stats and events for the aggregator.
Trusted boundary: human-reviewed embedding of `NmsPublisher.cpp`
Main exports: NmsPublisher.memory_bounded_iff
-/
import Terragraph.Lib.Transition

namespace Terragraph

/-- The keys of the low- and of the high-frequency stats that are queued, and the events. -/
structure NmsPublisher (κ ε : Type) where
  statsQueuesLF : Finset κ := ∅
  statsQueuesHF : Finset κ := ∅
  events : List ε := []

namespace NmsPublisher

structure Config (κ : Type) where
  isBlacklisted : κ → Bool
  isWhitelisted : κ → Bool
  statsBufferSize : Nat
  eventsBufferSize : Nat

/-- A counter of a message, an event that was parsed, or a timer, with the outcome of the report if the
aggregator is connected. -/
inductive Op (κ ε : Type) where
  | counter (key : κ)
  | event (event : ε)
  | pushNmsReport (success : Option Bool)
  | pushHighFrequencyStats (success : Option Bool)

variable {κ ε : Type} [DecidableEq κ] (config : Config κ) (s : NmsPublisher κ ε)

def totalQueueSize : Nat := s.statsQueuesLF.card + s.statsQueuesHF.card

def step : Op κ ε → NmsPublisher κ ε
  | .counter key =>
    if config.isBlacklisted key then s
    else if s.totalQueueSize ≥ config.statsBufferSize ∧ key ∉ s.statsQueuesLF then s
    else { s with
      statsQueuesLF := insert key s.statsQueuesLF
      statsQueuesHF :=
        if config.isWhitelisted key then insert key s.statsQueuesHF else s.statsQueuesHF }
  | .event event => { s with events := s.events ++ [event] }
  | .pushNmsReport none =>
    { s with events := s.events.drop (s.events.length - config.eventsBufferSize) }
  | .pushNmsReport (some true) => { s with statsQueuesLF := ∅, events := [] }
  | .pushHighFrequencyStats (some true) => { s with statsQueuesHF := ∅ }
  | _ => s

/-- The queues do not grow too long, and a report leaves the last events, not too many. -/
def Bounded (op : Op κ ε) : Prop :=
  (s.step config op).totalQueueSize ≤ config.statsBufferSize ∧
    ∀ success, op = .pushNmsReport success →
      (s.step config op).events.length ≤ config.eventsBufferSize ∧
        (s.step config op).events <:+ s.events

/-- A high-frequency key finds room in both queues, and a report that fails has few events. -/
def Roomy : Op κ ε → Prop
  | .counter key =>
    config.isBlacklisted key = false → config.isWhitelisted key → key ∉ s.statsQueuesHF →
      s.totalQueueSize + (if key ∈ s.statsQueuesLF then 0 else 1) ≠ config.statsBufferSize
  | .pushNmsReport (some false) => s.events.length ≤ config.eventsBufferSize
  | _ => True

variable {config s}

theorem bounded_iff (within : s.totalQueueSize ≤ config.statsBufferSize) (op : Op κ ε) :
    s.Bounded config op ↔ s.Roomy config op := by
  unfold Bounded totalQueueSize at *
  cases op with
  | counter key =>
    simp only [Roomy, totalQueueSize, step]
    by_cases listed : config.isBlacklisted key
    · simp [listed, within]
    · by_cases new : key ∈ s.statsQueuesLF
      · grind [Finset.card_insert_eq_ite]
      · grind [Finset.card_insert_eq_ite]
  | event => simpa [step, Roomy] using within
  | pushNmsReport success =>
    match success with
    | none => simpa [step, Roomy, List.drop_suffix] using ⟨within, by omega⟩
    | some true => simpa [step, Roomy] using Nat.le_of_add_left_le within
    | some false => simp [step, Roomy, within]
  | pushHighFrequencyStats success =>
    match success with
    | some true => simpa [step, Roomy] using Nat.le_of_add_right_le within
    | none | some false => simpa [step, Roomy] using within

/-- In a run that starts with the cached events, the bounds hold at every step if and only if every
step finds room. -/
theorem memory_bounded_iff (config : Config κ) (cached : List ε) (ops : List (Op κ ε)) :
    let exec := fun op s => some (step config s op)
    Transition.Permitted exec (Bounded config) ops { events := cached } ↔
      Transition.Permitted exec (Roomy config) ops { events := cached } := by
  intro exec
  suffices along : ∀ s : NmsPublisher κ ε, s.totalQueueSize ≤ config.statsBufferSize →
      (Transition.Permitted exec (Bounded config) ops s ↔
        Transition.Permitted exec (Roomy config) ops s) from
    along _ (Nat.zero_le _)
  induction ops with
  | nil => exact fun _ _ => Iff.rfl
  | cons op _ ih =>
    intro s within
    simp only [Transition.Permitted, exec, Option.some.injEq, forall_eq', bounded_iff within]
    refine and_congr_right fun roomy => ih _ ?_
    exact ((bounded_iff within op).mpr roomy).1

/-- Two keys in place of one, and two events in place of one after a report that fails. -/
theorem memory_not_bounded :
    let config : Config Nat := ⟨fun _ => false, fun _ => true, 1, 1⟩
    let failing : List (Op Nat Unit) := [.event (), .event (), .pushNmsReport (some false)]
    (step config ({} : NmsPublisher Nat Unit) (.counter 0)).totalQueueSize = 2 ∧
      (failing.foldl (step config) {}).events.length = 2 := by
  decide

end NmsPublisher

end Terragraph
