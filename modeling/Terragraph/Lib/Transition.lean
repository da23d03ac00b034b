/-
Module: Terragraph.Lib.Transition
Purpose: Runs of a labelled transition system under a side condition on every step.
Trusted boundary: none
Main exports: Reaches, Reaches.replay
-/
import Mathlib

namespace Transition

variable {σ ι : Type}

/-- The states reached from a start state by steps whose label is allowed where it is taken. -/
inductive Reaches (start : σ → Prop) (step : σ → ι → σ → Prop) (allowed : σ → ι → Prop) :
    σ → Prop where
  | start {s : σ} (initial : start s) : Reaches start step allowed s
  | step {s s' : σ} {label : ι} (reached : Reaches start step allowed s)
      (permitted : allowed s label) (taken : step s label s') : Reaches start step allowed s'

variable {start : σ → Prop} {step : σ → ι → σ → Prop} {allowed : σ → ι → Prop}

/-- What holds at the start and is kept by every step holds in every run. -/
theorem Reaches.invariant (property : σ → Prop) (initially : ∀ s, start s → property s)
    (kept : ∀ s label s', property s → allowed s label → step s label s' → property s')
    {s : σ} (reached : Reaches start step allowed s) : property s := by
  induction reached with
  | start initial => exact initially _ initial
  | step _ permitted taken ih =>
    exact kept _ _ _ ih permitted taken

theorem Reaches.mono_step {step' : σ → ι → σ → Prop}
    (steps : ∀ s label s', step s label s' → step' s label s')
    {s : σ} (reached : Reaches start step allowed s) : Reaches start step' allowed s := by
  induction reached with
  | start initial => exact .start initial
  | step _ permitted taken ih =>
    exact .step ih permitted (steps _ _ _ taken)

/-! ### Executable systems -/

section Executable

variable (exec : ι → σ → Option σ)

def replay : List ι → σ → Option σ
  | [], s => some s
  | label :: labels, s => (exec label s).bind (replay labels)

/-- Every step of a replay meets the condition, in the state it is taken in. -/
def Permitted (allowed : σ → ι → Prop) : List ι → σ → Prop
  | [], _ => True
  | label :: labels, s =>
    allowed s label ∧ ∀ s', exec label s = some s' → Permitted allowed labels s'

instance decidablePermitted (allowed : σ → ι → Prop) [∀ s label, Decidable (allowed s label)] :
    ∀ labels s, Decidable (Permitted exec allowed labels s)
  | [], _ => isTrue trivial
  | label :: labels, s =>
    have later : Decidable (∀ s', exec label s = some s' → Permitted exec allowed labels s') :=
      match exec label s with
      | none => isTrue (fun _ impossible => by cases impossible)
      | some s' =>
        match decidablePermitted allowed labels s' with
        | isTrue holds => isTrue (fun t same => by cases same; exact holds)
        | isFalse fails => isFalse (fun all => fails (all s' rfl))
    inferInstanceAs (Decidable (_ ∧ _))

theorem permitted_of_unrestricted (labels : List ι) (s : σ) :
    Permitted exec (fun _ _ => True) labels s := by
  induction labels generalizing s with
  | nil => trivial
  | cons _ _ ih => exact ⟨trivial, fun s' _ => ih s'⟩

variable {exec}

/-- Replaying permitted labels leads from a reachable state to a reachable one. -/
theorem Reaches.replay {allowed : σ → ι → Prop} {start : σ → Prop} {labels : List ι} {s s' : σ}
    (reached : Reaches start (fun s label s' => exec label s = some s') allowed s)
    (permitted : Permitted exec allowed labels s) (run : replay exec labels s = some s') :
    Reaches start (fun s label s' => exec label s = some s') allowed s' := by
  induction labels generalizing s with
  | nil =>
    cases run
    exact reached
  | cons _ _ ih =>
    obtain ⟨t, taken, rest⟩ := Option.bind_eq_some_iff.mp run
    exact ih (.step reached permitted.1 taken) (permitted.2 t taken) rest

end Executable

end Transition
