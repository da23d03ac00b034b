/-
Module: Terragraph.Airtime.BestPop
Purpose: The POP node that `computeTopologyToAirtime` takes as the best one for a node.
Trusted boundary: Boost leaves `Predecessors` in the predecessor map
Main exports: extractedPaths, ClosestPop, bestPop_closest_iff
-/
import Terragraph.Airtime.Allocation
import Terragraph.Lib.Rounds

namespace Terragraph.Airtime

open TopologyWrapper List KeyIndex ShortestPaths

/-! ### Paths in the graph -/

/-- The graph of `buildAirtimeGraph`. -/
def airtimeGraph (w : TopologyWrapper) : SimpleGraph String where
  Adj name nbr := name ≠ nbr ∧ ∃ link ∈ w.topology.links, Joins link name nbr
  symm := ⟨fun _ _ ⟨apart, link, member, joins⟩ => ⟨apart.symm, link, member, joins.symm⟩⟩
  loopless := ⟨fun _ adjacent => adjacent.1 rfl⟩

/-- The paths that are extracted from the predecessors of each search. -/
def extractedPaths (w : TopologyWrapper) (predecessorMap : String → String → String)
    (uplinkOrder adjustedOrder : SetOrder) : Traversal where
  pathNodes pop name := followed (predecessorMap pop) w.topology.nodes.length name
  uplinkOrder := uplinkOrder
  adjustedOrder := adjustedOrder

/-- A POP node that can be reached from the node, with no other POP node closer. -/
def ClosestPop (w : TopologyWrapper) (name best : String) : Prop :=
  best ∈ getPopNodeNames w ∧ (airtimeGraph w).Reachable best name ∧
    ∀ pop ∈ getPopNodeNames w, (airtimeGraph w).Reachable pop name →
      (airtimeGraph w).dist best name ≤ (airtimeGraph w).dist pop name

/-- The best POP node is a closest one exactly if every POP node can be reached, and one of them
over fewer than 99 links. -/
theorem bestPop_closest_iff {w : TopologyWrapper}
    (nodes : w.ExactNodes)
    (named : ∀ node ∈ w.topology.nodes, node.name ≠ "")
    (ends : ∀ link ∈ w.topology.links, link.aNodeName ∈ w.topology.nodes.map Node.name ∧
      link.zNodeName ∈ w.topology.nodes.map Node.name)
    {predecessorMap : String → String → String}
    (dijkstra : ∀ pop ∈ getPopNodeNames w, Predecessors (airtimeGraph w) pop (predecessorMap pop))
    (uplinkOrder adjustedOrder : SetOrder) {node : Node} (member : node ∈ w.topology.nodes)
    (notPop : node.popNode = false) :
    ClosestPop w node.name
        (bestPop w (extractedPaths w predecessorMap uplinkOrder adjustedOrder) node.name) ↔
      (∀ pop ∈ getPopNodeNames w, (airtimeGraph w).Reachable pop node.name) ∧
        ∃ pop ∈ getPopNodeNames w, (airtimeGraph w).dist pop node.name < 99 := by
  have popIff : ∀ node ∈ w.topology.nodes, isPop w node.name ↔ node.popNode := by
    intro _ isNode
    unfold isPop TopologyWrapper.getNode
    rw [nodes.find_eq_some_iff.mpr ⟨isNode, rfl⟩, Option.any_some]
  have closed : ∀ u v, (airtimeGraph w).Adj u v → v ∈ w.topology.nodes.map Node.name := by
    rintro u v ⟨_, link, isLink, ⟨_, rfl⟩ | ⟨_, rfl⟩⟩
    · exact (ends link isLink).2
    · exact (ends link isLink).1
  have apart : ¬ isPop w node.name := by
    rw [popIff node member, notPop]
    exact Bool.false_ne_true
  obtain ⟨size, isSize⟩ : ∃ size : String → Nat, ∀ pop,
      (shortestPaths w (extractedPaths w predecessorMap uplinkOrder adjustedOrder) pop
        node.name).card = size pop := ⟨_, fun _ => rfl⟩
  -- a POP node that cannot be reached has the smallest path of all
  have sizes : ∀ pop ∈ getPopNodeNames w, ((airtimeGraph w).Reachable pop node.name →
        size pop = (airtimeGraph w).dist pop node.name + 1) ∧
      (¬ (airtimeGraph w).Reachable pop node.name → size pop = 0) := by
    intro _ isPopName
    obtain ⟨popNode, listed, rfl⟩ := mem_map.mp isPopName
    obtain ⟨isNode, isPop⟩ := mem_filter.mp listed
    rw [← isSize, shortestPaths, if_pos ⟨isPopName, apart⟩, extractedPaths, ← length_map Node.name]
    constructor
    · apply card_followed (dijkstra _ isPopName) (mem_map_of_mem isNode) closed
      intro same
      exact apart (same ▸ (popIff popNode isNode).mpr isPop)
    · intro unreachable
      exact Finset.card_eq_zero.mpr (followed_eq_empty (dijkstra _ isPopName) unreachable _)
  unfold bestPop
  simp only [if_neg apart, isSize]
  generalize search : foldl _ _ _ = found
  have origin : found = ("", MAX_HOPS_FROM_POP) ∨
      found.1 ∈ getPopNodeNames w ∧ found.2 = size found.1 ∧ found.2 < MAX_HOPS_FROM_POP := by
    rw [← search]
    refine foldlRecOn (motive := fun best => best = ("", MAX_HOPS_FROM_POP) ∨
      best.1 ∈ getPopNodeNames w ∧ best.2 = size best.1 ∧ best.2 < MAX_HOPS_FROM_POP)
      _ _ (.inl rfl) ?_
    intro _ before _ isPopName
    split
    · next smaller =>
      refine .inr ⟨isPopName, rfl, smaller.trans_le ?_⟩
      rcases before with rfl | ⟨_, _, below⟩
      · exact le_rfl
      · exact below.le
    · exact before
  have least : ∀ pop ∈ getPopNodeNames w, found.2 ≤ size pop := by
    intro pop isPopName
    rw [← search]
    refine Guarded.foldl_makes (P := fun best : String × Nat => best.2 ≤ size pop)
      (Q := (· = pop)) ?_ ?_ (.inl ⟨pop, isPopName, rfl⟩)
    · intro _ _ _ below
      split
      · next smaller => exact smaller.le.trans below
      · exact below
    · rintro _ _ rfl
      split
      · exact le_rfl
      · next larger => exact not_lt.mp larger
  constructor
  · rintro ⟨isPopName, reachable, _⟩
    rcases origin with rfl | ⟨_, own, below⟩
    · obtain ⟨popNode, listed, empty⟩ := mem_map.mp isPopName
      exact absurd empty (named popNode (mem_filter.mp listed).1)
    · rw [(sizes _ isPopName).1 reachable] at own
      refine ⟨fun pop isPop => ?_, found.1, isPopName, ?_⟩
      · by_contra unreachable
        have smallest := least pop isPop
        rw [(sizes pop isPop).2 unreachable] at smallest
        omega
      · rw [MAX_HOPS_FROM_POP] at below
        omega
  · rintro ⟨reachable, near, isNear, _⟩
    have own := fun pop isPop => (sizes pop isPop).1 (reachable pop isPop)
    have smallest := least near isNear
    rw [own near isNear] at smallest
    rcases origin with rfl | ⟨isPopName, same, _⟩
    · rw [MAX_HOPS_FROM_POP] at smallest
      omega
    · refine ⟨isPopName, reachable _ isPopName, fun pop isPop _ => ?_⟩
      have smaller := least pop isPop
      rw [same, own _ isPopName, own pop isPop] at smaller
      omega

/-! ### A node with a POP node next to it -/

/-- The POP nodes `r` and `p` and the node `q` in a row, and further nodes without links. -/
def besidePop (others : List Node) : TopologyWrapper :=
  indexed
    { nodes := { name := "r", popNode := true } :: { name := "p", popNode := true } ::
        { name := "q" } :: others
      links := [wirelessLink "p" "q", wirelessLink "p" "r"] }

def besidePopPredecessors (pop name : String) : String :=
  if pop = "p" ∧ (name = "q" ∨ name = "r") ∨ pop = "r" ∧ name = "q" then "p"
  else if pop = "r" ∧ name = "p" then "r"
  else name

variable {others : List Node} {name other : String}

theorem besidePop_adj : (airtimeGraph (besidePop others)).Adj name other ↔
      name = "p" ∧ (other = "q" ∨ other = "r") ∨ (name = "q" ∨ name = "r") ∧ other = "p" := by
  have joined : (airtimeGraph (besidePop others)).Adj name other ↔ name ≠ other ∧
      (Joins (wirelessLink "p" "q") name other ∨ Joins (wirelessLink "p" "r") name other) := by
    simp [airtimeGraph, besidePop, indexed, ofTopology]
  rw [joined]
  constructor
  · rintro ⟨_, (⟨rfl, rfl⟩ | ⟨rfl, rfl⟩) | ⟨rfl, rfl⟩ | ⟨rfl, rfl⟩⟩ <;> decide
  · rintro (⟨rfl, rfl | rfl⟩ | ⟨rfl | rfl, rfl⟩)
    · exact ⟨by decide, .inl (.inl ⟨rfl, rfl⟩)⟩
    · exact ⟨by decide, .inr (.inl ⟨rfl, rfl⟩)⟩
    · exact ⟨by decide, .inl (.inr ⟨rfl, rfl⟩)⟩
    · exact ⟨by decide, .inr (.inr ⟨rfl, rfl⟩)⟩

theorem besidePop_reachable (isLinked : name ∈ ["p", "q", "r"]) (isOther : other ∈ ["p", "q", "r"]) :
    (airtimeGraph (besidePop others)).Reachable name other := by
  have toP : ∀ name ∈ ["p", "q", "r"], (airtimeGraph (besidePop others)).Reachable name "p" := by
    intro name isName
    simp only [mem_cons, not_mem_nil, or_false] at isName
    rcases isName with rfl | linked
    · exact .refl _
    · exact (besidePop_adj.mpr (.inr ⟨linked, rfl⟩)).reachable
  exact (toP name isLinked).trans (toP other isOther).symm

theorem besidePop_end (apart : name ≠ other)
    (reachable : (airtimeGraph (besidePop others)).Reachable name other) :
    name ∈ ["p", "q", "r"] := by
  obtain ⟨walk⟩ := reachable
  cases walk with
  | nil => exact absurd rfl apart
  | cons adjacent _ =>
    rcases besidePop_adj.mp adjacent with ⟨rfl, _⟩ | ⟨rfl | rfl, _⟩ <;> decide

theorem besidePop_dist_one (adjacent : (airtimeGraph (besidePop others)).Adj name other) :
    (airtimeGraph (besidePop others)).dist name other = 1 :=
  SimpleGraph.dist_eq_one_iff_adj.mpr adjacent

theorem besidePop_dist_two : (airtimeGraph (besidePop others)).dist "r" "q" = 2 := by
  have toP : (airtimeGraph (besidePop others)).Adj "r" "p" := besidePop_adj.mpr (by decide)
  have toQ : (airtimeGraph (besidePop others)).Adj "p" "q" := besidePop_adj.mpr (by decide)
  have upper := SimpleGraph.dist_le (.cons toP (.cons toQ .nil))
  have apart : (airtimeGraph (besidePop others)).dist "r" "q" ≠ 0 := by
    rw [Ne, SimpleGraph.Reachable.dist_eq_zero_iff (toP.reachable.trans toQ.reachable)]
    decide
  have notAdjacent : (airtimeGraph (besidePop others)).dist "r" "q" ≠ 1 := by
    rw [Ne, SimpleGraph.dist_eq_one_iff_adj, besidePop_adj]
    decide
  simp only [SimpleGraph.Walk.length_cons, SimpleGraph.Walk.length_nil] at upper
  omega

theorem besidePop_dijkstra {pop : String} (isPop : pop ≠ "q") :
    Predecessors (airtimeGraph (besidePop others)) pop (besidePopPredecessors pop) where
  kept := by
    intro name fixed
    have alone : name ≠ pop → pop ∈ ["p", "q", "r"] → name ∉ ["p", "q", "r"] := by
      intro apart isLinked isName
      exact (fixed.resolve_left apart) (besidePop_reachable isLinked isName)
    unfold besidePopPredecessors
    split_ifs with behindP isP
    · rcases behindP with ⟨rfl, rfl | rfl⟩ | ⟨rfl, rfl⟩
      all_goals exact absurd (by decide) (alone (by decide) (by decide))
    · obtain ⟨rfl, rfl⟩ := isP
      exact absurd (by decide) (alone (by decide) (by decide))
    · rfl
  closer := by
    intro name apart reachable
    have isLinked := besidePop_end apart.symm reachable
    have isName := besidePop_end apart reachable.symm
    simp only [mem_cons, not_mem_nil, or_false, isPop, false_or] at isLinked isName
    have next : ∀ {name other}, name = "p" ∧ (other = "q" ∨ other = "r") ∨
          (name = "q" ∨ name = "r") ∧ other = "p" →
        (airtimeGraph (besidePop others)).Adj name other ∧
          (airtimeGraph (besidePop others)).dist name name + 1 =
            (airtimeGraph (besidePop others)).dist name other := by
      intro name other joined
      have adjacent : (airtimeGraph (besidePop others)).Adj name other := besidePop_adj.mpr joined
      rw [besidePop_dist_one adjacent, SimpleGraph.dist_self]
      exact ⟨adjacent, rfl⟩
    rcases isLinked with rfl | rfl
    · rcases isName with rfl | rfl | rfl
      · exact absurd rfl apart
      · exact next (by decide)
      · exact next (by decide)
    · rcases isName with rfl | rfl | rfl
      · exact next (by decide)
      · change (airtimeGraph (besidePop others)).Adj "p" "q" ∧
          (airtimeGraph (besidePop others)).dist "r" "p" + 1 = _
        rw [besidePop_dist_two, besidePop_dist_one (besidePop_adj.mpr (by decide))]
        exact ⟨besidePop_adj.mpr (by decide), rfl⟩
      · exact absurd rfl apart

/-- Of the two POP nodes, at distances 1 and 2, the closer one is taken. -/
theorem besidePop_closest :
    bestPop (besidePop []) (extractedPaths (besidePop []) besidePopPredecessors .sorted .sorted)
        "q" = "p" ∧
      ClosestPop (besidePop []) "q" (bestPop (besidePop [])
        (extractedPaths (besidePop []) besidePopPredecessors .sorted .sorted) "q") := by
  refine ⟨by decide, ?_⟩
  have isPop : ∀ pop ∈ getPopNodeNames (besidePop []), pop ≠ "q" ∧ pop ∈ ["p", "q", "r"] := by decide
  apply (bestPop_closest_iff (refresh_exact (by decide) (by simp)) (by decide) (by decide)
    (fun pop listed => besidePop_dijkstra (isPop pop listed).1) .sorted .sorted
    (mem_cons_of_mem _ (mem_cons_of_mem _ mem_cons_self)) rfl).mpr
  refine ⟨fun pop listed => besidePop_reachable (isPop pop listed).2 (by decide), "p", by decide, ?_⟩
  rw [besidePop_dist_one (besidePop_adj.mpr (by decide))]
  decide

/-- A POP node `s` without links is taken although `p` is next to `q`. -/
theorem unreachable_pop_preferred : let w := besidePop [{ name := "s", popNode := true }]
    (∀ pop ∈ getPopNodeNames w, Predecessors (airtimeGraph w) pop (besidePopPredecessors pop)) ∧
      (airtimeGraph w).dist "p" "q" = 1 ∧
      ¬ ClosestPop w "q"
        (bestPop w (extractedPaths w besidePopPredecessors .sorted .sorted) "q") := by
  intro w
  refine ⟨?_, besidePop_dist_one (besidePop_adj.mpr (by decide)), ?_⟩
  · have notQ : ∀ pop ∈ getPopNodeNames w, pop ≠ "q" := by decide
    exact fun pop isPop => besidePop_dijkstra (notQ pop isPop)
  · have best : bestPop w (extractedPaths w besidePopPredecessors .sorted .sorted) "q" = "s" := by
      decide
    rintro ⟨_, reachable, _⟩
    have isEnd := besidePop_end (by decide) reachable
    revert isEnd
    decide

end Terragraph.Airtime
