/-
Module: Terragraph.Lib.Rounds
Purpose: Loops without a bound of their own, run for a number of rounds, loops that take an item off
  a stack, visit it and push further items, breadth-first exploration of a graph, shortest paths
  that are stored as predecessors, and the greedy choice of items that share no resource.
Trusted boundary: none
Main exports: Rounds.loop, Stack.drain, Worklist.searchFor_eq_some, Greedy.maximal_select,
  ShortestPaths.card_followed
-/
import Terragraph.Lib.Guarded

namespace Rounds

open Filter Guarded List

variable {ε σ : Type} {rounds : Nat}

/-- Repeat a step until the state is final, at most this many times. -/
def loop (final : σ → Prop) [DecidablePred final] (step : σ → Except ε σ) (exhausted : ε) :
    Nat → σ → Except ε σ
  | 0, s => if final s then .ok s else .error exhausted
  | rounds + 1, s => if final s then .ok s else do loop final step exhausted rounds (← step s)

section Loop

variable {final : σ → Prop} [DecidablePred final] {step : σ → Except ε σ} {exhausted : ε}

theorem loop_of_final {s : σ} (isFinal : final s) (rounds : Nat) :
    loop final step exhausted rounds s = .ok s := by
  cases rounds with
  | zero | succ rounds => exact if_pos isFinal

theorem loop_succ {s s' : σ} (notFinal : ¬ final s) (stepped : step s = .ok s') (rounds : Nat) :
    loop final step exhausted (rounds + 1) s = loop final step exhausted rounds s' := by
  rw [loop, if_neg notFinal, stepped]
  rfl

/-- A loop whose steps keep an invariant and decrease a rank returns a final state. -/
theorem loop_returns {μ : Type} [Preorder μ] [WellFoundedLT μ] (rank : σ → μ) (invariant : σ → Prop)
    (each : ∀ s, invariant s → ¬ final s →
      ∃ s', step s = .ok s' ∧ invariant s' ∧ rank s' < rank s) {s : σ} (holds : invariant s) :
    ∃ s', invariant s' ∧ final s' ∧
      ∀ᶠ rounds in atTop, loop final step exhausted rounds s = .ok s' := by
  induction value : rank s using WellFoundedLT.induction generalizing s with
  | ind value ih =>
    by_cases isFinal : final s
    · exact ⟨s, holds, isFinal, .of_forall (loop_of_final isFinal)⟩
    · obtain ⟨next, stepped, kept, smaller⟩ := each s holds isFinal
      obtain ⟨s', final', isFinal', returns⟩ :=
        ih (rank next) (value ▸ smaller) kept rfl
      refine ⟨s', final', isFinal', ?_⟩
      -- one round more than the next state needs
      obtain ⟨enough, returned⟩ := eventually_atTop.mp returns
      refine eventually_atTop.mpr ⟨enough + 1, fun rounds _ => ?_⟩
      obtain ⟨fewer, rfl⟩ : ∃ fewer, rounds = fewer + 1 := ⟨rounds - 1, by omega⟩
      rw [loop_succ isFinal stepped]
      exact returned fewer (by omega)

theorem loop_mono {more : Nat} {s a : σ} (many : rounds ≤ more)
    (returned : loop final step exhausted rounds s = .ok a) :
    loop final step exhausted more s = .ok a := by
  induction rounds generalizing more s with
  | zero =>
    by_cases isFinal : final s
    · rw [loop_of_final isFinal] at returned ⊢
      exact returned
    · simp [loop, isFinal] at returned
  | succ _ ih =>
    by_cases isFinal : final s
    · rw [loop_of_final isFinal] at returned ⊢
      exact returned
    · rw [loop, if_neg isFinal] at returned
      obtain ⟨_, stepped, remaining⟩ := except_bind_eq_ok.mp returned
      obtain ⟨fewer, rfl⟩ : ∃ fewer, more = fewer + 1 := ⟨more - 1, by omega⟩
      rw [loop_succ isFinal stepped]
      exact ih (by omega) remaining

end Loop

/-! ### More rounds -/

def Stable {α : Type} (program : Nat → Except ε α) : Prop :=
  ∀ rounds more a, rounds ≤ more → program rounds = .ok a → program more = .ok a

theorem Stable.eventually {α : Type} {program : Nat → Except ε α} (stable : Stable program)
    {a : α} (returned : program rounds = .ok a) :
    ∀ᶠ rounds in atTop, program rounds = .ok a :=
  eventually_atTop.mpr ⟨rounds, fun more many => stable rounds more a many returned⟩

theorem Stable.const {α : Type} (x : Except ε α) : Stable fun _ => x :=
  fun _ _ _ _ returned => returned

theorem Stable.bind {α β : Type} {first : Nat → Except ε α} {rest : Nat → α → Except ε β}
    (stable : Stable first) (stables : ∀ a, Stable fun rounds => rest rounds a) :
    Stable fun rounds => first rounds >>= rest rounds := by
  intro rounds more b many returned
  obtain ⟨a, ran, remaining⟩ := except_bind_eq_ok.mp returned
  exact except_bind_eq_ok.mpr
    ⟨a, stable rounds more a many ran, stables a rounds more b many remaining⟩

theorem Stable.foldlM {ι β : Type} {body : Nat → β → ι → Except ε β}
    (stable : ∀ b item, Stable fun rounds => body rounds b item) (items : List ι) (b : β) :
    Stable fun rounds => items.foldlM (body rounds) b := by
  induction items generalizing b with
  | nil => exact .const _
  | cons item _ ih =>
    exact (stable b item).bind ih

theorem Stable.loop {final : σ → Prop} [DecidablePred final] (step : σ → Except ε σ)
    (exhausted : ε) (s : σ) : Stable fun rounds => Rounds.loop final step exhausted rounds s :=
  fun _ _ _ many returned => loop_mono many returned

theorem foldlM_returns {ι β : Type} {body : Nat → β → ι → Except ε β}
    (invariant : List ι → β → Prop) {items : List ι} {b : β} (holds : invariant [] b)
    (each : ∀ done item rest, items = done ++ item :: rest → ∀ b, invariant done b →
      ∃ b', invariant (done ++ [item]) b' ∧ ∀ᶠ rounds in atTop, body rounds b item = .ok b') :
    ∃ b', invariant items b' ∧ ∀ᶠ rounds in atTop, items.foldlM (body rounds) b = .ok b' := by
  -- generalise the part that is done, so that the induction can move along the list
  suffices general : ∀ rest done b, items = done ++ rest → invariant done b →
      ∃ b', invariant items b' ∧ ∀ᶠ rounds in atTop, rest.foldlM (body rounds) b = .ok b' from
    general items [] b rfl holds
  intro rest
  induction rest with
  | nil =>
    intro _ b split reached
    rw [append_nil] at split
    rw [split]
    exact ⟨b, reached, .of_forall fun _ => rfl⟩
  | cons item rest ih =>
    intro done b split reached
    obtain ⟨next, extended, returned⟩ := each done item rest split b reached
    obtain ⟨b', complete, remaining⟩ := ih (done ++ [item]) next
      (by rw [split, append_assoc, singleton_append]) extended
    refine ⟨b', complete, (returned.and remaining).mono fun rounds ⟨first, later⟩ => ?_⟩
    rw [foldlM_cons, first]
    exact later

end Rounds

namespace Stack

open Guarded List Finset

variable {ε σ α : Type} {rounds : Nat}

/-- Take items off the stack until it is empty, at most this many times. -/
def drain {m : Type → Type} [Monad m] (visit : σ → α → m (σ × List α)) : Nat → List α → σ → m σ
  | _, [], s => pure s
  | 0, _ :: _, s => pure s
  | rounds + 1, a :: rest, s => do
    let (s', pushed) ← visit s a
    drain visit rounds (pushed ++ rest) s'

/-- If visits keep an invariant and pay for what they push, the stack runs empty with it. -/
theorem drain_rule {visit : σ → α → Except ε (σ × List α)} (invariant : List α → σ → Prop)
    (weight : σ → Nat)
    (each : ∀ a rest s s' pushed, invariant (a :: rest) s → visit s a = .ok (s', pushed) →
      invariant (pushed ++ rest) s' ∧ pushed.length + weight s' ≤ weight s)
    {stack : List α} {s s' : σ} (holds : invariant stack s)
    (enough : stack.length + weight s ≤ rounds) (drained : drain visit rounds stack s = .ok s') :
    invariant [] s' := by
  induction rounds generalizing stack s with
  | zero =>
    have empty : stack = [] := length_eq_zero_iff.mp (by omega)
    subst empty
    cases drained
    exact holds
  | succ _ ih =>
    cases stack with
    | nil =>
      cases drained
      exact holds
    | cons a rest =>
      obtain ⟨⟨next, pushed⟩, visited, remaining⟩ := except_bind_eq_ok.mp drained
      obtain ⟨kept, _⟩ := each a rest s next pushed holds visited
      apply ih kept _ remaining
      rw [length_append]
      rw [length_cons] at enough
      omega

theorem drain_ok (visit : σ → α → σ × List α) (rounds : Nat) (stack : List α) (s : σ) :
    drain (fun s a => (.ok (visit s a) : Except ε (σ × List α))) rounds stack s =
      .ok (Id.run (drain (fun s a => pure (visit s a)) rounds stack s)) := by
  induction rounds generalizing stack s with
  | zero =>
    cases stack with
    | nil | cons a rest => rfl
  | succ _ ih =>
    cases stack with
    | nil => rfl
    | cons => exact ih _ _

theorem drain_rule_id {visit : σ → α → σ × List α} (invariant : List α → σ → Prop)
    (weight : σ → Nat)
    (each : ∀ a rest s, invariant (a :: rest) s → invariant ((visit s a).2 ++ rest) (visit s a).1 ∧
        (visit s a).2.length + weight (visit s a).1 ≤ weight s)
    {stack : List α} {s : σ} (holds : invariant stack s)
    (enough : stack.length + weight s ≤ rounds) :
    invariant [] (Id.run (drain (fun s a => pure (visit s a)) rounds stack s)) := by
  have drained : drain (fun s a => (.ok (visit s a) : Except Unit (σ × List α))) rounds stack s =
      _ := drain_ok visit rounds stack s
  refine drain_rule invariant weight ?_ holds enough drained
  intro a rest s s' pushed before visited
  have same : visit s a = (s', pushed) := Except.ok.inj visited
  have kept := each a rest s before
  rw [same] at kept
  exact kept

/-! ### Visiting keys once -/

variable {κ : Type} [DecidableEq κ]

def credit (keys visited : Finset κ) (bound : Nat) : Nat := (keys \ visited).card * (bound + 1)

theorem credit_insert {keys visited : Finset κ} {bound : Nat} {key : κ} (isKey : key ∈ keys)
    (fresh : key ∉ visited) {pushed : Nat} (few : pushed ≤ bound) :
    pushed + credit keys (insert key visited) bound ≤ credit keys visited bound := by
  have smaller : (keys \ insert key visited).card + 1 = (keys \ visited).card := by
    rw [sdiff_insert]
    exact card_erase_add_one (mem_sdiff.mpr ⟨isKey, fresh⟩)
  unfold credit
  rw [← smaller, Nat.add_mul]
  omega

theorem credit_le (keys visited : Finset κ) (bound : Nat) :
    credit keys visited bound ≤ keys.card * (bound + 1) :=
  Nat.mul_le_mul_right _ (card_le_card sdiff_subset)

end Stack

namespace Worklist

open List

variable {α : Type} [DecidableEq α] {rounds : Nat}

structure Search (α : Type) where
  visited : Finset α
  queue : List α

def discover (s : Search α) (a : α) : Search α :=
  if a ∈ s.visited then s else ⟨insert a s.visited, s.queue ++ [a]⟩

/-- Take a vertex off the queue and enter its neighbours. -/
def expand (nbrs : α → List α) (s : Search α) : Search α :=
  match s.queue with
  | [] => s
  | a :: rest => (nbrs a).foldl discover ⟨s.visited, rest⟩

def explore (nbrs : α → List α) : Nat → Search α → Search α
  | 0, s => s
  | rounds + 1, s => explore nbrs rounds (expand nbrs s)

def Search.start (a : α) : Search α := ⟨{a}, [a]⟩

abbrev Reaches (nbrs : α → List α) : α → α → Prop :=
  Relation.ReflTransGen fun a b => b ∈ nbrs a

theorem foldl_discover (list : List α) (s : Search α) :
    ∃ new : List α, new.Nodup ∧ (∀ b, b ∈ new ↔ b ∈ list ∧ b ∉ s.visited) ∧
      (list.foldl discover s).queue = s.queue ++ new ∧
      (list.foldl discover s).visited = s.visited ∪ new.toFinset := by
  induction list generalizing s with
  | nil => exact ⟨[], by simp⟩
  | cons a _ ih =>
    obtain ⟨new, nodup, members, queue, visited⟩ := ih (discover s a)
    rw [foldl_cons, queue, visited]
    by_cases seen : a ∈ s.visited
    · have same : discover s a = s := if_pos seen
      rw [same] at members ⊢
      refine ⟨new, nodup, ?_, rfl, rfl⟩
      intro b
      rw [members, mem_cons]
      constructor
      · exact fun ⟨later, unseen⟩ => ⟨.inr later, unseen⟩
      · rintro ⟨rfl | later, unseen⟩
        · exact absurd seen unseen
        · exact ⟨later, unseen⟩
    · have entered : discover s a = ⟨insert a s.visited, s.queue ++ [a]⟩ := if_neg seen
      rw [entered] at members ⊢
      have apart : a ∉ new := fun member => ((members a).mp member).2 (Finset.mem_insert_self ..)
      refine ⟨a :: new, nodup_cons.mpr ⟨apart, nodup⟩, ?_, by simp, ?_⟩
      · intro b
        rw [mem_cons, members, mem_cons, Finset.mem_insert, not_or]
        constructor
        · rintro (rfl | ⟨later, _, unseen⟩)
          · exact ⟨.inl rfl, seen⟩
          · exact ⟨.inr later, unseen⟩
        · rintro ⟨rfl | later, unseen⟩
          · exact .inl rfl
          · by_cases same : b = a
            · exact .inl same
            · exact .inr ⟨later, same, unseen⟩
      · ext b
        simp

/-- What holds of a search at any time. -/
structure Explored (nbrs : α → List α) (start : α) (s : Search α) : Prop where
  started : start ∈ s.visited
  reachable : ∀ a ∈ s.visited, Reaches nbrs start a
  queued : ∀ a ∈ s.queue, a ∈ s.visited
  nodup : s.queue.Nodup
  expanded : ∀ a ∈ s.visited, a ∉ s.queue → ∀ b ∈ nbrs a, b ∈ s.visited

omit [DecidableEq α] in
theorem Explored.start (nbrs : α → List α) (a : α) : Explored nbrs a (.start a) where
  started := Finset.mem_singleton_self a
  reachable := by
    intro b member
    rw [Finset.mem_singleton.mp member]
  queued := by simp [Search.start]
  nodup := nodup_singleton a
  expanded := by
    intro b member unqueued
    exact absurd (mem_singleton.mpr (Finset.mem_singleton.mp member)) unqueued

variable {s : Search α}

variable {nbrs : α → List α}

variable {start : α}

theorem Explored.expand (explored : Explored nbrs start s) :
    Explored nbrs start (expand nbrs s) := by
  obtain ⟨seen, queue⟩ := s
  cases queue with
  | nil => exact explored
  | cons a rest =>
    obtain ⟨_, nodup, members, queue, visited⟩ := foldl_discover (nbrs a) ⟨seen, rest⟩
    have reachesA := explored.reachable a (explored.queued a (by simp))
    have queueNodup := nodup_cons.mp explored.nodup
    change Explored nbrs start ((nbrs a).foldl discover ⟨seen, rest⟩)
    refine ⟨?_, ?_, ?_, ?_, ?_⟩
    · rw [visited]
      exact Finset.mem_union_left _ explored.started
    · intro b member
      rw [visited, Finset.mem_union, mem_toFinset] at member
      rcases member with old | isNew
      · exact explored.reachable b old
      · exact reachesA.tail ((members b).mp isNew).1
    · intro b member
      rw [queue, mem_append] at member
      rw [visited, Finset.mem_union, mem_toFinset]
      rcases member with old | isNew
      · exact .inl (explored.queued b (by simp [old]))
      · exact .inr isNew
    · rw [queue, nodup_append]
      refine ⟨queueNodup.2, nodup, ?_⟩
      rintro b old c isNew rfl
      exact ((members b).mp isNew).2 (explored.queued b (by simp [old]))
    · intro b member unqueued c adjacent
      rw [queue, mem_append, not_or] at unqueued
      rw [visited, Finset.mem_union, mem_toFinset] at member ⊢
      have old : b ∈ seen := member.resolve_right unqueued.2
      by_cases same : b = a
      · subst same
        by_cases known : c ∈ seen
        · exact .inl known
        · exact .inr ((members c).mpr ⟨adjacent, known⟩)
      · exact .inl (explored.expanded b old (by simp [same, unqueued.1]) c adjacent)

theorem Explored.explore (explored : Explored nbrs start s) (rounds : Nat) :
    Explored nbrs start (explore nbrs rounds s) := by
  induction rounds generalizing s with
  | zero => exact explored
  | succ _ ih => exact ih explored.expand

theorem explore_progress {done : Nat}
    (before : s.queue = [] ∨ done + s.queue.length ≤ s.visited.card) :
    (explore nbrs rounds s).queue = [] ∨ done + rounds + (explore nbrs rounds s).queue.length ≤
        (explore nbrs rounds s).visited.card := by
  induction rounds generalizing done s with
  | zero => exact before
  | succ rounds ih =>
    rw [show done + (rounds + 1) = done + 1 + rounds by omega]
    apply ih
    obtain ⟨seen, queue⟩ := s
    cases queue with
    | nil => exact .inl rfl
    | cons a rest =>
      right
      have counted := before.resolve_left (by simp)
      obtain ⟨new, nodup, members, queue, visited⟩ := foldl_discover (nbrs a) ⟨seen, rest⟩
      have disjoint : Disjoint seen new.toFinset := by
        rw [Finset.disjoint_left]
        intro b old isNew
        exact ((members b).mp (mem_toFinset.mp isNew)).2 old
      change done + 1 + ((nbrs a).foldl discover ⟨seen, rest⟩).queue.length ≤
        ((nbrs a).foldl discover ⟨seen, rest⟩).visited.card
      rw [queue, visited, Finset.card_union_of_disjoint disjoint, toFinset_card_of_nodup nodup]
      simp only [length_append, length_cons] at counted ⊢
      omega

variable {vertices : Finset α}

theorem explore_ends
    (inside : start ∈ vertices) (closed : ∀ a ∈ vertices, ∀ b ∈ nbrs a, b ∈ vertices)
    (enough : vertices.card ≤ rounds) : (explore nbrs rounds (.start start)).queue = [] := by
  have explored := (Explored.start nbrs start).explore rounds
  have within : ∀ b, Reaches nbrs start b → b ∈ vertices := by
    intro b path
    induction path with
    | refl => exact inside
    | tail _ adjacent ih => exact closed _ ih _ adjacent
  have few : (explore nbrs rounds (.start start)).visited.card ≤ vertices.card :=
    Finset.card_le_card fun b member => within b (explored.reachable b member)
  have filled : (Search.start start).queue = [] ∨
      0 + (Search.start start).queue.length ≤ (Search.start start).visited.card :=
    .inr (by simp [Search.start])
  have progress : (explore nbrs rounds (.start start)).queue = [] ∨
      0 + rounds + (explore nbrs rounds (.start start)).queue.length ≤
        (explore nbrs rounds (.start start)).visited.card := explore_progress filled
  rcases progress with empty | _
  · exact empty
  · apply length_eq_zero_iff.mp
    omega

omit [DecidableEq α] in
theorem Explored.complete (explored : Explored nbrs start s)
    (ended : s.queue = []) {a : α} (path : Reaches nbrs start a) : a ∈ s.visited := by
  induction path with
  | refl => exact explored.started
  | tail _ adjacent ih =>
    exact explored.expanded _ ih (by rw [ended]; simp) _ adjacent

/-- On a finite closed set of vertices, the search visits exactly the reachable ones. -/
theorem explore_complete
    (inside : start ∈ vertices) (closed : ∀ a ∈ vertices, ∀ b ∈ nbrs a, b ∈ vertices)
    (enough : vertices.card ≤ rounds) (a : α) :
    a ∈ (explore nbrs rounds (.start start)).visited ↔ Reaches nbrs start a := by
  have explored := (Explored.start nbrs start).explore rounds
  exact ⟨explored.reachable a, explored.complete (explore_ends inside closed enough)⟩

/-! ### Search for a vertex with a property -/

/-- Expand until the vertex at the front of the queue is a goal. -/
def searchFor (nbrs : α → List α) (isGoal : α → Prop) [DecidablePred isGoal] :
    Nat → Search α → Option α
  | 0, _ => none
  | rounds + 1, s =>
    match s.queue with
    | [] => none
    | a :: _ => if isGoal a then some a else searchFor nbrs isGoal rounds (expand nbrs s)

variable {isGoal : α → Prop} [DecidablePred isGoal]

theorem searchFor_cons (rounds : Nat) (seen : Finset α) (a : α) (rest : List α) :
    searchFor nbrs isGoal (rounds + 1) ⟨seen, a :: rest⟩ =
      if isGoal a then some a else searchFor nbrs isGoal rounds (expand nbrs ⟨seen, a :: rest⟩) :=
  rfl

theorem searchFor_eq_some {a : α} (explored : Explored nbrs start s)
    (found : searchFor nbrs isGoal rounds s = some a) : isGoal a ∧ Reaches nbrs start a := by
  induction rounds generalizing s with
  | zero => cases found
  | succ _ ih =>
    obtain ⟨_, queue⟩ := s
    cases queue with
    | nil => cases found
    | cons =>
      rw [searchFor_cons] at found
      split at found
      · next goal =>
        cases found
        exact ⟨goal, explored.reachable _ (explored.queued _ mem_cons_self)⟩
      · exact ih explored.expand found

end Worklist

namespace Greedy

open List

variable {α κ : Type} [DecidableEq κ]

def Apart (needs : α → List κ) (one two : α) : Prop := ∀ key ∈ needs one, key ∉ needs two

/-- The items that are taken, given the resources that are used already. -/
def select (needs : α → List κ) (barred : α → Bool) : List α → List κ → List α
  | [], _ => []
  | item :: rest, used =>
    if (needs item).any (· ∈ used) || barred item then select needs barred rest used
    else item :: select needs barred rest (needs item ++ used)

variable {needs : α → List κ} {barred : α → Bool}

variable {items : List α} {used : List κ} {item : α}

/-- A taken item is listed and not barred, and needs nothing that is used already. -/
theorem of_mem_select (taken : item ∈ select needs barred items used) :
    item ∈ items ∧ barred item = false ∧ ∀ key ∈ needs item, key ∉ used := by
  induction items generalizing used with
  | nil => cases taken
  | cons _ _ ih =>
    rw [select] at taken
    split at taken
    · exact (ih taken).imp_left (mem_cons_of_mem _)
    · next free =>
      rcases mem_cons.mp taken with rfl | later
      · simp only [Bool.or_eq_true, not_or, Bool.not_eq_true, any_eq_false, decide_eq_true_eq] at free
        exact ⟨mem_cons_self, free.2, free.1⟩
      · obtain ⟨member, awake, unused⟩ := ih later
        exact ⟨mem_cons_of_mem _ member, awake,
          fun key needed isUsed => unused key needed (mem_append_right _ isUsed)⟩

theorem pairwise_select (items : List α) (used : List κ) :
    (select needs barred items used).Pairwise (Apart needs) := by
  induction items generalizing used with
  | nil => exact .nil
  | cons _ _ ih =>
    rw [select]
    split
    · exact ih used
    · refine pairwise_cons.mpr ⟨?_, ih _⟩
      intro _ taken key needed isNeeded
      exact (of_mem_select taken).2.2 key isNeeded (mem_append_left _ needed)

/-- An item that is not taken is barred, or needs what was used before or by a taken item. -/
theorem maximal_select (member : item ∈ items) :
    item ∈ select needs barred items used ∨ barred item = true ∨ ∃ key ∈ needs item, key ∈ used ∨
        ∃ other ∈ select needs barred items used, key ∈ needs other := by
  induction items generalizing used with
  | nil => cases member
  | cons first _ ih =>
    rw [select]
    split
    · next skipped =>
      rcases mem_cons.mp member with rfl | later
      · rw [Bool.or_eq_true] at skipped
        rcases skipped with inUse | isBarred
        · obtain ⟨key, needed, isUsed⟩ := any_eq_true.mp inUse
          exact .inr (.inr ⟨key, needed, .inl (of_decide_eq_true isUsed)⟩)
        · exact .inr (.inl isBarred)
      · exact ih later
    · rcases mem_cons.mp member with rfl | later
      · exact .inl mem_cons_self
      · rcases @ih (needs first ++ used) later with
          taken | isBarred | ⟨key, needed, conflict⟩
        · exact .inl (mem_cons_of_mem _ taken)
        · exact .inr (.inl isBarred)
        · refine .inr (.inr ⟨key, needed, ?_⟩)
          rcases conflict with isUsed | ⟨other, taken, isNeeded⟩
          · rcases mem_append.mp isUsed with byFirst | before
            · exact .inr ⟨first, mem_cons_self, byFirst⟩
            · exact .inl before
          · exact .inr ⟨other, mem_cons_of_mem _ taken, isNeeded⟩

end Greedy

namespace ShortestPaths

open List

variable {V : Type} [DecidableEq V] {G : SimpleGraph V} {root v : V} {predecessor : V → V}

/-- The predecessors on shortest paths from a root.  The root and what it does not reach are their
own predecessors. -/
structure Predecessors (G : SimpleGraph V) (root : V) (predecessor : V → V) : Prop where
  kept : ∀ v, v = root ∨ ¬ G.Reachable root v → predecessor v = v
  closer : ∀ v, v ≠ root → G.Reachable root v →
    G.Adj (predecessor v) v ∧ G.dist root (predecessor v) + 1 = G.dist root v

/-- The ends of at most so many edges that lead from a vertex back along its predecessors. -/
def followed (predecessor : V → V) : Nat → V → Finset V
  | 0, _ => ∅
  | edges + 1, v =>
    if predecessor v = v then ∅
    else insert (predecessor v) (insert v (followed predecessor edges (predecessor v)))

section

variable (shortest : Predecessors G root predecessor)
include shortest

-- the distance falls by one with every edge, so no vertex is met twice
theorem card_insert_followed {edges : Nat} (reachable : G.Reachable root v)
    (short : G.dist root v ≤ edges) :
    (insert v (followed predecessor edges v)).card = G.dist root v + 1 ∧
      ∀ x ∈ insert v (followed predecessor edges v), G.dist root x ≤ G.dist root v := by
  induction edges generalizing v with
  | zero =>
    rw [← reachable.dist_eq_zero_iff.mp (Nat.le_zero.mp short)]
    simp [followed]
  | succ edges ih =>
    unfold followed
    by_cases start : v = root
    · rw [if_pos (shortest.kept v (.inl start))]
      simp [start]
    · obtain ⟨adjacent, _⟩ := shortest.closer v start reachable
      obtain ⟨_, near⟩ := ih (reachable.trans adjacent.symm.reachable) (by omega)
      have later : v ∉ insert (predecessor v) (followed predecessor edges (predecessor v)) := by
        intro member
        have := near v member
        omega
      rw [if_neg adjacent.ne, Finset.insert_comm (predecessor v), Finset.insert_idem,
        Finset.card_insert_of_notMem later]
      refine ⟨by omega, ?_⟩
      intro x member
      rcases Finset.mem_insert.mp member with rfl | before
      · exact le_rfl
      · have := near x before
        omega

/-- All edges are followed if there are as many as vertices. -/
theorem card_followed {vertices : List V} (inside : root ∈ vertices)
    (closed : ∀ u v, G.Adj u v → v ∈ vertices) (start : v ≠ root)
    (reachable : G.Reachable root v) :
    (followed predecessor vertices.length v).card = G.dist root v + 1 := by
  obtain ⟨path, isPath, length⟩ := reachable.exists_path_of_dist
  have within : path.support ⊆ vertices := by
    intro u onPath
    rcases path.mem_support_iff.mp onPath with rfl | later
    · exact inside
    · obtain ⟨dart, _, rfl⟩ := mem_map.mp (path.map_snd_darts ▸ later)
      exact closed _ _ dart.adj
  have bound := (subperm_of_subset isPath.support_nodup within).length_le
  rw [path.length_support, length] at bound
  obtain ⟨card, _⟩ := card_insert_followed shortest reachable ((Nat.le_succ _).trans bound)
  have member : v ∈ followed predecessor vertices.length v := by
    rw [← Nat.succ_pred_eq_of_pos (length_pos_of_mem inside), followed,
      if_neg (shortest.closer v start reachable).1.ne]
    simp
  rw [← card, Finset.insert_eq_of_mem member]

theorem followed_eq_empty (unreachable : ¬ G.Reachable root v) (edges : Nat) :
    followed predecessor edges v = ∅ := by
  cases edges with
  | zero => rfl
  | succ => exact if_pos (shortest.kept v (.inr unreachable))

end

end ShortestPaths
