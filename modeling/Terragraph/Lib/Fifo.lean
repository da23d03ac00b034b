/-
Module: Terragraph.Lib.Fifo
Purpose: A first-in first-out queue along an infinite run.
Trusted boundary: none
Main exports: Fed, settles
-/
import Mathlib

namespace Fifo

open Filter Nat List

variable {α : Type} {queue : ℕ → List α} {removes : ℕ → Prop} {good : α → Prop} {start : ℕ}

structure Fed (queue : ℕ → List α) (removes : ℕ → Prop) (good : α → Prop) (start : ℕ) : Prop where
  removed : ∀ n ≥ start, removes n → ∃ head, queue n = head :: queue (n + 1)
  added : ∀ n ≥ start, ¬ removes n → ∃ more, queue (n + 1) = queue n ++ more ∧ ∀ x ∈ more, good x

section Counting

variable [DecidablePred removes]

theorem Fed.split (fed : Fed queue removes good start) {n : ℕ} (later : start ≤ n) :
    ∃ new, queue n = (queue start).drop (count removes n - count removes start) ++ new ∧
      ∀ x ∈ new, good x := by
  induction n, later using le_induction with
  | base =>
    refine ⟨[], ?_, forall_mem_nil _⟩
    rw [Nat.sub_self, drop_zero, append_nil]
  | succ n later ih =>
    obtain ⟨new, queued, allGood⟩ := ih
    have counted := count_monotone removes later
    by_cases removal : removes n
    · obtain ⟨_, taken⟩ := fed.removed n later removal
      rw [Nat.count_succ_eq_succ_count_iff.mpr removal, Nat.sub_add_comm counted, ← drop_drop]
      generalize (queue start).drop (count removes n - count removes start) = left at queued
      rw [queued] at taken
      cases left with
      | nil =>
        rw [nil_append] at taken
        rw [taken] at allGood
        exact ⟨queue (n + 1), rfl, fun x queuedAfter => allGood x (.tail _ queuedAfter)⟩
      | cons => exact ⟨new, (cons.inj taken).2.symm, allGood⟩
    · obtain ⟨more, grown, moreGood⟩ := fed.added n later removal
      rw [count_succ_eq_count_iff.mpr removal]
      refine ⟨new ++ more, ?_, ?_⟩
      · rw [grown, queued, append_assoc]
      · exact forall_mem_append.mpr ⟨allGood, moreGood⟩

theorem Fed.drained (fed : Fed queue removes good start) {n : ℕ} (later : start ≤ n)
    (enough : count removes start + (queue start).length ≤ count removes n) :
    ∀ x ∈ queue n, good x := by
  obtain ⟨_, queued, allGood⟩ := fed.split later
  rw [drop_eq_nil_of_le (Nat.le_sub_of_add_le' enough)] at queued
  rw [queued]
  exact allGood

theorem exists_removal (often : ∃ᶠ n in atTop, removes n) (start count : ℕ) :
    ∃ n ≥ start, removes n ∧ Nat.count removes n = Nat.count removes start + count := by
  have infinite : {n | removes n}.Infinite := frequently_atTop_iff_infinite.mp often
  refine ⟨Nat.nth removes (Nat.count removes start + count), ?_,
    nth_mem_of_infinite infinite _, count_nth_of_infinite infinite _⟩
  exact (le_nth_count infinite start).trans (nth_monotone infinite (le_add_right _ _))

end Counting

/-- A rank that never grows, and that every removal lowers, is zero in the end. -/
theorem settles {rank : ℕ → ℕ} (often : ∃ᶠ n in atTop, removes n)
    (kept : ∀ n ≥ start, rank (n + 1) ≤ rank n)
    (lowered : ∀ n ≥ start, removes n → rank n ≠ 0 → rank (n + 1) < rank n) :
    ∃ m ≥ start, ∀ n ≥ m, rank n = 0 := by
  induction bound : rank start using Nat.strong_induction_on generalizing start with
  | _ _ ih =>
    subst bound
    have anti : ∀ n ≥ start, rank n ≤ rank start := by
      intro n later
      induction n, later using le_induction with
      | base => exact le_rfl
      | succ n later smaller => exact (kept n later).trans smaller
    by_cases settled : ∀ n ≥ start, rank n = 0
    · exact ⟨start, le_rfl, settled⟩
    · push Not at settled
      obtain ⟨n, later, _⟩ := settled
      obtain ⟨m, afterN, removal⟩ := frequently_atTop.mp often n
      have afterStart : start ≤ m := later.trans afterN
      have smaller : rank (m + 1) < rank start := by
        by_cases zero : rank m = 0
        · have here := anti n later
          have next := kept m afterStart
          omega
        · exact (lowered m afterStart removal zero).trans_le (anti m afterStart)
      obtain ⟨k, afterM, final⟩ := ih _ smaller
        (fun i bound => kept i (afterStart.trans ((le_succ m).trans bound)))
        (fun i bound => lowered i (afterStart.trans ((le_succ m).trans bound))) rfl
      exact ⟨k, afterStart.trans ((le_succ m).trans afterM), final⟩

end Fifo
