/-
Module: Terragraph.Algorithms.OccSolver
Purpose: The keys of the table of subproblems of `OccSolver`.
Trusted boundary: human-reviewed embedding of the signatures of `OccSolver.cpp`
Main exports: SubProblem.signature_faithful_iff
-/
import Terragraph.Lib.KeyIndex

namespace Terragraph

open List

/-- `OccSolver::SubProblem`. -/
structure SubProblem where
  node : String
  left : Finset String
  right : Finset String
  pick : Finset String
deriving DecidableEq

namespace SubProblem

/-- `folly::join`. -/
def join (names : Finset String) : List Char :=
  intercalate [',', ' '] ((Ascending.listing names).map String.toList)

/-- `SubProblem::signature`. -/
def signature (p : SubProblem) : List Char :=
  '(' :: (p.node.toList ++ ([')', '=', '>', '('] ++ (join p.left ++ ([')', '('] ++
    (join p.right ++ ([')', '('] ++ (join p.pick ++ [')'])))))))

/-- A name that is not empty and consists of the given characters. -/
def NameOver (allowed : Set Char) (name : String) : Prop :=
  name.toList ≠ [] ∧ ∀ c ∈ name.toList, c ∈ allowed

def Over (allowed : Set Char) (p : SubProblem) : Prop :=
  ∀ name ∈ insert p.node (p.left ∪ p.right ∪ p.pick), NameOver allowed name

section Injective

variable {c : Char} {sep : List Char} (inSep : c ∈ sep)
include inSep

theorem append_sep_inj {a b rest rest' : List Char} (notA : c ∉ a) (notB : c ∉ b)
    (same : a ++ (sep ++ rest) = b ++ (sep ++ rest')) : a = b ∧ rest = rest' := by
  have lengths := congrArg (idxOf c) same
  rw [idxOf_append_of_notMem notA, idxOf_append_of_notMem notB, idxOf_append_of_mem inSep,
    idxOf_append_of_mem inSep] at lengths
  obtain ⟨rfl, sameRest⟩ := append_inj same (Nat.add_right_cancel lengths)
  exact ⟨rfl, append_cancel_left sameRest⟩

theorem intercalate_inj {xs ys : List (List Char)} (left : ∀ x ∈ xs, x ≠ [] ∧ c ∉ x)
    (right : ∀ y ∈ ys, y ≠ [] ∧ c ∉ y) (same : intercalate sep xs = intercalate sep ys) :
    xs = ys := by
  induction xs generalizing ys with
  | nil => match ys with
    | [] => rfl
    | [_] | _ :: _ :: _ => simp_all
  | cons x xs ih =>
    obtain ⟨here, later⟩ := forall_mem_cons.mp left
    match xs, ys with
    | [], [] | [], [_] | _ :: _, [] => simp_all
    | [], _ :: _ :: _ =>
      rw [intercalate_singleton, intercalate_cons_cons] at same
      exact absurd (by simp [inSep]) (same ▸ here.2)
    | _ :: _, [y] =>
      rw [intercalate_singleton, intercalate_cons_cons] at same
      exact absurd (by simp [inSep]) (same ▸ (right y mem_cons_self).2)
    | _ :: _, y :: _ :: _ =>
      obtain ⟨there, after⟩ := forall_mem_cons.mp right
      rw [intercalate_cons_cons, intercalate_cons_cons, append_assoc, append_assoc] at same
      obtain ⟨rfl, sameRest⟩ := append_sep_inj inSep here.2 there.2 same
      rw [ih later after sameRest]

end Injective

variable {allowed : Set Char} {names names' : Finset String} {c : Char}

theorem notMem_intercalate {sep : List Char} {xs : List (List Char)} (apart : c ∉ sep)
    (plain : ∀ x ∈ xs, c ∉ x) : c ∉ intercalate sep xs := by
  induction xs with
  | nil => exact not_mem_nil
  | cons x xs ih =>
    obtain ⟨here, later⟩ := forall_mem_cons.mp plain
    cases xs with
    | nil => rwa [intercalate_singleton]
    | cons => simp [intercalate_cons_cons, here, apart, ih later]

theorem names_without (apart : c ∉ allowed) (named : ∀ name ∈ names, NameOver allowed name) :
    ∀ x ∈ (Ascending.listing names).map String.toList, x ≠ [] ∧ c ∉ x := by
  intro x member
  obtain ⟨name, isName, rfl⟩ := mem_map.mp member
  obtain ⟨nonempty, inside⟩ := named name (Ascending.mem_listing.mp isName)
  exact ⟨nonempty, fun inName => apart (inside c inName)⟩

theorem join_inj (inSep : c ∈ [',', ' ']) (apart : c ∉ allowed)
    (named : ∀ name ∈ names, NameOver allowed name)
    (named' : ∀ name ∈ names', NameOver allowed name)
    (same : join names = join names') : names = names' := by
  have lists := map_injective_iff.mpr (fun _ _ => String.toList_inj.mp)
    (intercalate_inj inSep (names_without apart named) (names_without apart named') same)
  ext name
  rw [← Ascending.mem_listing, lists, Ascending.mem_listing]

/-- Signatures tell the subproblems over an alphabet apart if and only if it lacks a character of
the separator of names, and a parenthesis. -/
theorem signature_faithful_iff (allowed : Set Char) :
    (∀ p q : SubProblem, p.Over allowed → q.Over allowed → p.signature = q.signature → p = q) ↔
      (∃ c ∈ [',', ' '], c ∉ allowed) ∧ ∃ c ∈ [')', '('], c ∉ allowed := by
  constructor
  · intro faithful
    constructor
    · by_contra both
      have same := faithful ⟨",", {" ", ","}, ∅, ∅⟩ ⟨",", {" , ,"}, ∅, ∅⟩
        (by simp_all [Over, NameOver]) (by simp_all [Over, NameOver]) (by decide)
      revert same
      decide
    · by_contra both
      have same := faithful ⟨"(", {")("}, ∅, ∅⟩ ⟨"(", ∅, {")("}, ∅⟩
        (by simp_all [Over, NameOver]) (by simp_all [Over, NameOver]) (by decide)
      revert same
      decide
  · rintro ⟨⟨c, inSep, noSep⟩, ⟨d, isBracket, noBracket⟩⟩ ⟨_, left, right, pick⟩
      ⟨_, left', right', pick'⟩ named named' same
    simp only [Over, Finset.forall_mem_insert, Finset.forall_mem_union] at named named'
    obtain ⟨nodeOver, ⟨leftOver, rightOver⟩, pickOver⟩ := named
    obtain ⟨nodeOver', ⟨leftOver', rightOver'⟩, pickOver'⟩ := named'
    obtain ⟨inFirst, other⟩ : d ∈ [')', '=', '>', '('] ∧ d ∉ [',', ' '] := by
      rcases mem_pair.mp isBracket with rfl | rfl <;> decide
    have plain {names} (named : ∀ name ∈ names, NameOver allowed name) : d ∉ join names :=
      notMem_intercalate other fun x member => (names_without noBracket named x member).2
    obtain ⟨sameNode, same⟩ := append_sep_inj inFirst
      (fun inside => noBracket (nodeOver.2 d inside))
      (fun inside => noBracket (nodeOver'.2 d inside)) (cons.inj same).2
    obtain ⟨sameLeft, same⟩ := append_sep_inj isBracket (plain leftOver) (plain leftOver') same
    obtain ⟨sameRight, same⟩ := append_sep_inj isBracket (plain rightOver) (plain rightOver') same
    rw [String.toList_inj.mp sameNode, join_inj inSep noSep leftOver leftOver' sameLeft,
      join_inj inSep noSep rightOver rightOver' sameRight,
      join_inj inSep noSep pickOver pickOver' (append_cancel_right same)]

/-- Two names on one side, and on the other side one name that looks like their list. -/
theorem signature_not_faithful :
    (⟨"c", {"a", "b"}, {"a, b"}, {"c"}⟩ : SubProblem).signature =
      (⟨"c", {"a, b"}, {"a", "b"}, {"c"}⟩ : SubProblem).signature := by
  decide

end SubProblem

end Terragraph
