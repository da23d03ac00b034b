/-
Module: Terragraph.Algorithms.NetworkAssignment
Purpose: `InterferenceHelper::allocateNewLinkColors`, which gives every link group a color, and how
  the network-wide assignments write the color of its group for both ends of every link.
Trusted boundary: human-reviewed embedding of `InterferenceHelper.cpp` and of the common parts of
  `ChannelHelper.cpp` and `GolayHelper.cpp`; the interference of two groups, the groups that
  `OccSolver` picks and the order of unordered containers are parameters
Main exports: Power, allocateNewLinkColors_spec, NetworkEnv, LinkSetting.all_groupLinks
-/
import Terragraph.Algorithms.LinkGroups

namespace Terragraph

open List AssocList Option Nat

/-- The operations on `float` that the helper uses. -/
class Power (R : Type) extends Zero R, Add R, Div R, Max R, Min R, LT R, OfScientific R where
  decidableLt : DecidableLT R

instance Power.toDecidableLT {R : Type} [Power R] : DecidableLT R := Power.decidableLt

instance : Power Rat where
  decidableLt := inferInstance

/-- `InterferenceHelper::GroupName2Color`. -/
abbrev GroupName2Color := List (String × Int)

/-- `InterferenceHelper::InterferenceMatrix`. -/
abbrev InterferenceMatrix (R : Type) := List (String × List (String × R))

/-- What the allocation of colors uses apart from the topology and the config. -/
structure Interference (R : Type) where
  order : SetOrder
  /-- `InterferenceHelper::estimateGroup2GroupInterference`, of the links of two groups. -/
  estimate : TopologyWrapper → ConfigHelper → Bool → Finset String → Finset String → R
  /-- `OccSolver::getOccSolution`, for the vertices and the edges of a graph with weights. -/
  getOccSolution : List String → InterferenceMatrix R → (String → Option R) → Finset String

section Colors

variable {R : Type} [Power R] (env : Interference R)

/-! ### Interference -/

def Interference.entries {ν : Type} (map : List (String × ν)) : List (String × ν) :=
  (env.order.toList (keys map).toFinset).filterMap fun key =>
    (find key map).map fun value => (key, value)

/-- The groups that interfere, each pair once. -/
def interferingGroups (estimate : Finset String → Finset String → R) :
    List (String × Finset String) → List (String × String × R)
  | [] => []
  | aGroup :: rest =>
    (rest.filterMap fun bGroup =>
      let interference := estimate aGroup.2 bGroup.2
      if 0 < interference then some (aGroup.1, bGroup.1, interference) else none) ++
    interferingGroups estimate rest

/-- `interferenceMatrix[aName][bName] = interference`. -/
def InterferenceMatrix.set (matrix : InterferenceMatrix R) (aName bName : String)
    (interference : R) : InterferenceMatrix R :=
  upsert [] aName (upsert interference bName fun _ => interference) matrix

/-- `InterferenceHelper::getInterferenceMatrix`. -/
def getInterferenceMatrix (w : TopologyWrapper) (helper : ConfigHelper)
    (group2Links : GroupNameToLinkNames) (shouldAccountForChannel : Bool) :
    InterferenceMatrix R :=
  (interferingGroups (env.estimate w helper shouldAccountForChannel)
    (env.entries group2Links)).foldl (fun matrix pair =>
      (InterferenceMatrix.set matrix pair.1 pair.2.1 pair.2.2).set pair.2.1 pair.1 pair.2.2) []

/-- The interference of a group with all others, as `InterferenceHelper::buildGraph` adds it up. -/
def groupInterference (matrix : InterferenceMatrix R) (groupName : String) : Option R :=
  (find groupName matrix).map fun row =>
    (env.entries row).foldl (fun sum neighbor => sum + neighbor.2) 0

/-! ### The color of a group -/

/-- `InterferenceHelper::almostEqualPower`. -/
def almostEqualPower (value1 value2 : R) : Bool :=
  max value1 value2 / (min value1 value2 + 0.0001) < 1.2589

/-- `color2Cost[color] += cost`, in an ordered map. -/
def addCost (color : Int) (cost : R) : List (Int × R) → List (Int × R)
  | [] => [(color, 0 + cost)]
  | entry :: rest =>
    if color < entry.1 then (color, 0 + cost) :: entry :: rest
    else if color = entry.1 then (color, entry.2 + cost) :: rest
    else entry :: addCost color cost rest

def minColorCost : List (Int × R) → Int × R
  | [] => (0, 0)
  | first :: rest => rest.foldl (fun least entry => if entry.2 < least.2 then entry else least) first

/-- `InterferenceHelper::getPreferredLinkColor`.  The colors are a set in ascending order. -/
def getPreferredLinkColor (groupId : String) (group2AssignedColor : GroupName2Color)
    (matrix : InterferenceMatrix R) (group2AutoColor : GroupName2Color) (colors : List Int) : Int :=
  if colors.length = 1 then colors.headD 0
  else
    let previousColor := find groupId group2AutoColor
    match find groupId matrix with
    | none => (previousColor.filter colors.contains).getD (colors.headD 0)
    | some row =>
      let color2Cost := (env.entries row).foldl (fun color2Cost neighbor =>
        match find neighbor.1 group2AssignedColor with
        | none => color2Cost
        | some neighborAssignedColor => addCost neighborAssignedColor neighbor.2 color2Cost)
        (colors.map fun color => (color, 0))
      let least := minColorCost color2Cost
      -- an existing color with about the same cost is kept
      (previousColor.filter fun color =>
        match find color color2Cost with
        | none => false
        | some previousColorCost => almostEqualPower previousColorCost least.2).getD least.1

/-! ### The allocation -/

/-- The local variables of the loops of `allocateNewLinkColors`. -/
structure Coloring where
  group2AssignedColor : GroupName2Color
  visitedGroups : Finset String

/-- Give a group a color. -/
def Coloring.assign (coloring : Coloring) (groupName : String) (color : Int) : Coloring where
  group2AssignedColor :=
    upsert color groupName (fun _ => color) coloring.group2AssignedColor
  visitedGroups := insert groupName coloring.visitedGroups

/-- Visit a group: it gets a color if it has none. -/
def colorGroup (matrix : InterferenceMatrix R) (group2AutoColor : GroupName2Color)
    (colors : List Int) (coloring : Coloring) (groupName : String) : Coloring :=
  match find groupName coloring.group2AssignedColor with
  | some _ => { coloring with visitedGroups := insert groupName coloring.visitedGroups }
  | none => coloring.assign groupName
      (getPreferredLinkColor env groupName coloring.group2AssignedColor matrix group2AutoColor
        colors)

/-- The body of the first loop; groups that the OCC solution excludes wait unless they have a color.
-/
def visitGroup (matrix : InterferenceMatrix R) (occResult : Finset String)
    (group2AutoColor : GroupName2Color) (colors : List Int) (coloring : Coloring)
    (groupName : String) : Coloring × List String :=
  if groupName ∈ coloring.visitedGroups ∨
      groupName ∈ occResult ∧ find groupName coloring.group2AssignedColor = none then
    (coloring, [])
  else
    let coloring' := colorGroup env matrix group2AutoColor colors coloring groupName
    let neighbors := env.entries ((find groupName matrix).getD [])
    (coloring', ((neighbors.map Prod.fst).filter fun neighbor =>
      find neighbor coloring'.group2AssignedColor = none).reverse)

/-- The body of the second loop. -/
def colorRemaining (matrix : InterferenceMatrix R) (group2AutoColor : GroupName2Color)
    (colors : List Int) (coloring : Coloring) (groupName : String) : Coloring :=
  match find groupName coloring.group2AssignedColor with
  | some _ => coloring
  | none => colorGroup env matrix group2AutoColor colors coloring groupName

/-- The groups of the second loop, those with most interference first; the order of equal ones is
open. -/
def remainingGroups (matrix : InterferenceMatrix R) (occResult : Finset String) : List String :=
  (((env.order.toList occResult).map fun groupId =>
      (groupId, (groupInterference env matrix groupId).getD 0)).insertionSort
    fun a b => ¬ a.2 < b.2).map Prod.fst

def colorRounds (matrix : InterferenceMatrix R) (visitStack : List String) : Nat :=
  let edges := (matrix.flatMap Prod.snd).length
  visitStack.length + (visitStack.length + edges) * (edges + 1)

/-- `InterferenceHelper::allocateNewLinkColors`. -/
def allocateNewLinkColors (group2Links : GroupNameToLinkNames) (w : TopologyWrapper)
    (helper : ConfigHelper) (group2UserColor group2AutoColor : GroupName2Color)
    (shouldAccountForChannel : Bool) (colors : List Int) : GroupName2Color :=
  let matrix := getInterferenceMatrix env w helper group2Links shouldAccountForChannel
  let groupNames := (env.entries group2Links).map Prod.fst
  let occResult := env.getOccSolution groupNames matrix (groupInterference env matrix)
  let visitStack := ((env.entries group2UserColor).map Prod.fst).reverse ++ groupNames
  let coloring := Id.run (Stack.drain
    (fun coloring groupName =>
      pure (visitGroup env matrix occResult group2AutoColor colors coloring groupName))
    (colorRounds matrix visitStack) visitStack
    { group2AssignedColor := group2UserColor, visitedGroups := ∅ })
  ((remainingGroups env matrix occResult).foldl
    (colorRemaining env matrix group2AutoColor colors) coloring).group2AssignedColor

/-! ### Every group gets a color -/

variable {env}

omit [Power R] in
theorem mem_entries {ν : Type} {map : List (String × ν)} {entry : String × ν} :
    entry ∈ env.entries map ↔ find entry.1 map = some entry.2 := by
  unfold Interference.entries
  rw [mem_filterMap]
  constructor
  · rintro ⟨_, _, found⟩
    obtain ⟨_, isValue, rfl⟩ := map_eq_some_iff.mp found
    exact isValue
  · intro found
    refine ⟨entry.1, ?_, by rw [found]; rfl⟩
    rw [env.order.mem_toList, List.mem_toFinset]
    exact find_ne_none_iff.mp (by simp [found])

omit [Power R] in
theorem length_entries_le {ν : Type} (map : List (String × ν)) :
    (env.entries map).length ≤ map.length := by
  have once : (env.order.toList (keys map).toFinset).length ≤ map.length := by
    rw [← toFinset_card_of_nodup (env.order.nodup _)]
    have same : (env.order.toList (keys map).toFinset).toFinset = (keys map).toFinset := by
      ext key
      simp [env.order.mem_toList]
    rw [same]
    exact (toFinset_card_le _).trans_eq (length_map _)
  exact (length_filterMap_le _ _).trans once

section Visit

variable {matrix : InterferenceMatrix R} {occResult : Finset String}
  {group2AutoColor : GroupName2Color} {colors : List Int} {coloring : Coloring}
  {groupName : String}

theorem mem_keys_addCost {color key : Int} {cost : R} {color2Cost : List (Int × R)} :
    key ∈ keys (addCost color cost color2Cost) ↔ key = color ∨ key ∈ keys color2Cost := by
  fun_induction addCost color cost color2Cost <;> grind

theorem minColorCost_mem {color2Cost : List (Int × R)} (nonempty : color2Cost ≠ []) :
    minColorCost color2Cost ∈ color2Cost := by
  obtain ⟨first, rest, rfl⟩ := exists_cons_of_ne_nil nonempty
  unfold minColorCost
  refine foldlRecOn rest _ mem_cons_self fun least isEntry entry later => ?_
  split
  · exact mem_cons_of_mem _ later
  · exact isEntry

/-- All colors that are assigned are good. -/
def Coloring.Within (good : Int → Prop) (coloring : Coloring) : Prop :=
  ∀ name color, find name coloring.group2AssignedColor = some color → good color

variable {good : Int → Prop}

variable (env matrix group2AutoColor groupName) in
/-- A group is given one of the colors to choose from, or the color of another group. -/
theorem Coloring.Within.preferred (within : coloring.Within good) (nonempty : colors ≠ [])
    (offered : ∀ color ∈ colors, good color) :
    good (getPreferredLinkColor env groupName coloring.group2AssignedColor matrix group2AutoColor
      colors) := by
  have first : good (colors.headD 0) := by
    obtain ⟨color, _, rfl⟩ := exists_cons_of_ne_nil nonempty
    exact offered color mem_cons_self
  unfold getPreferredLinkColor
  split
  · exact first
  dsimp only
  split
  · cases kept : (find groupName group2AutoColor).filter colors.contains with
    | none => exact first
    | some color => exact offered color (contains_iff_mem.mp (filter_eq_some_iff.mp kept).2)
  · next row _ =>
    generalize isCost : (env.entries row).foldl _ _ = color2Cost
    have costs : color2Cost ≠ [] ∧ ∀ color ∈ keys color2Cost, good color := by
      rw [← isCost]
      refine foldlRecOn (motive := fun costs : List (Int × R) =>
        costs ≠ [] ∧ ∀ color ∈ AssocList.keys costs, good color) _ _ ?_ ?_
      · simpa using ⟨nonempty, offered⟩
      rintro before ⟨nonempty, offered⟩ neighbor _
      split
      · exact ⟨nonempty, offered⟩
      · next color isColor =>
        refine ⟨?_, fun key isKey => ?_⟩
        · intro empty
          have isKey : color ∈ keys (addCost color neighbor.2 before) :=
            mem_keys_addCost.mpr (.inl rfl)
          simp [empty] at isKey
        · rcases mem_keys_addCost.mp isKey with rfl | old
          · exact within _ _ isColor
          · exact offered key old
    cases kept : Option.filter _ _ with
    | none => exact costs.2 _ (mem_map_of_mem (minColorCost_mem costs.1))
    | some color =>
      refine costs.2 color (find_ne_none_iff.mp fun absent => ?_)
      have close := (filter_eq_some_iff.mp kept).2
      rw [absent] at close
      cases close

theorem Coloring.Within.colorGroup (within : coloring.Within good) (nonempty : colors ≠ [])
    (offered : ∀ color ∈ colors, good color) :
    (colorGroup env matrix group2AutoColor colors coloring groupName).Within good := by
  unfold Terragraph.colorGroup
  split
  · exact within
  · intro name color isColor
    simp only [Coloring.assign, find_upsert] at isColor
    split at isColor
    · cases isColor
      exact within.preferred env matrix group2AutoColor groupName nonempty offered
    · exact within name color isColor

/-- A group that is visited has a color, and groups keep the colors they have. -/
structure ExtendsColoring (groupName : String) (coloring coloring' : Coloring) : Prop where
  colored : find groupName coloring'.group2AssignedColor ≠ none
  keeps : ∀ other color, find other coloring.group2AssignedColor = some color →
    find other coloring'.group2AssignedColor = some color
  visitedGroups : coloring'.visitedGroups = insert groupName coloring.visitedGroups

theorem extendsColoring_colorGroup : ExtendsColoring groupName coloring
      (colorGroup env matrix group2AutoColor colors coloring groupName) := by
  unfold colorGroup
  cases found : find groupName coloring.group2AssignedColor with
  | some => exact ⟨by simp [found], fun _ _ kept => kept, rfl⟩
  | none =>
    refine ⟨?_, ?_, rfl⟩
    · simp [Coloring.assign, find_upsert]
    · intro other _ isColor
      have differs : groupName ≠ other := by
        rintro rfl
        rw [found] at isColor
        cases isColor
      simp [Coloring.assign, find_upsert, differs, isColor]

/-- What holds during the first loop, of the colors that are assigned and of all groups. -/
structure ColoringWaits (good : Int → Prop) (groupNames : List String)
    (occResult keys : Finset String) (visitStack : List String) (coloring : Coloring) : Prop where
  known : ∀ name ∈ visitStack, name ∈ keys
  visited : ∀ name ∈ coloring.visitedGroups,
    find name coloring.group2AssignedColor ≠ none
  within : coloring.Within good
  reached : ∀ name ∈ groupNames, name ∈ occResult ∨
    find name coloring.group2AssignedColor ≠ none ∨ name ∈ visitStack

def BoundedRows (matrix : InterferenceMatrix R) (edges : Nat) (keys : Finset String) : Prop :=
  ∀ groupName row, find groupName matrix = some row →
    row.length ≤ edges ∧ ∀ neighbor ∈ AssocList.keys row, neighbor ∈ keys

variable (env group2AutoColor) in
/-- Visiting a group keeps the invariant, and a group that is visited pays for those it pushes. -/
theorem ColoringWaits.round {groupNames rest : List String} {keys : Finset String} {edges : Nat}
    (bounded : BoundedRows matrix edges keys) (nonempty : colors ≠ [])
    (offered : ∀ color ∈ colors, good color)
    (waiting : ColoringWaits good groupNames occResult keys (groupName :: rest) coloring) :
    ColoringWaits good groupNames occResult keys
        ((visitGroup env matrix occResult group2AutoColor colors coloring groupName).2 ++ rest)
        (visitGroup env matrix occResult group2AutoColor colors coloring groupName).1 ∧
      (visitGroup env matrix occResult group2AutoColor colors coloring groupName).2.length +
          Stack.credit keys
            (visitGroup env matrix occResult group2AutoColor colors coloring groupName).1.visitedGroups
            edges ≤
        Stack.credit keys coloring.visitedGroups edges := by
  unfold visitGroup
  split
  · next skipped =>
    refine ⟨⟨?_, waiting.visited, waiting.within, ?_⟩, by simp⟩
    · intro name member
      exact waiting.known name (mem_cons_of_mem _ member)
    · intro name isGroup
      rcases waiting.reached name isGroup with excluded | colored | onStack
      · exact .inl excluded
      · exact .inr (.inl colored)
      · rcases mem_cons.mp onStack with rfl | later
        · rcases skipped with done | ⟨excluded, _⟩
          · exact .inr (.inl (waiting.visited _ done))
          · exact .inl excluded
        · exact .inr (.inr later)
  · next taken =>
    rw [not_or] at taken
    have extended : ExtendsColoring groupName coloring
      (colorGroup env matrix group2AutoColor colors coloring groupName) := extendsColoring_colorGroup
    have within : (colorGroup env matrix group2AutoColor colors coloring groupName).Within good :=
      waiting.within.colorGroup nonempty offered
    generalize colorGroup env matrix group2AutoColor colors coloring groupName = coloring'
      at extended within
    have colored : ∀ name, find name coloring.group2AssignedColor ≠ none →
        find name coloring'.group2AssignedColor ≠ none := by
      intro name hasColor
      obtain ⟨color, isColor⟩ := ne_none_iff_exists'.mp hasColor
      simp [extended.keeps name color isColor]
    have row : ∀ neighbor ∈ env.entries ((find groupName matrix).getD []), neighbor.1 ∈ keys := by
      intro _ member
      rw [mem_entries] at member
      cases isRow : find groupName matrix with
      | none =>
        rw [isRow] at member
        cases member
      | some row =>
        rw [isRow] at member
        apply (bounded groupName row isRow).2
        exact AssocList.find_ne_none_iff.mp (by simp [show AssocList.find _ row = _ from member])
    have short : (env.entries ((AssocList.find groupName matrix).getD [])).length ≤ edges := by
      refine (length_entries_le _).trans ?_
      cases isRow : AssocList.find groupName matrix with
      | none => exact zero_le _
      | some row => exact (bounded groupName row isRow).1
    refine ⟨⟨?_, ?_, within, ?_⟩, ?_⟩
    · intro name member
      rcases mem_append.mp member with pushed | later
      · have isNeighbor := mem_of_mem_filter (mem_reverse.mp pushed)
        obtain ⟨neighbor, isEntry, rfl⟩ := mem_map.mp isNeighbor
        exact row neighbor isEntry
      · exact waiting.known name (mem_cons_of_mem _ later)
    · intro name member
      rw [extended.visitedGroups] at member
      rcases Finset.mem_insert.mp member with rfl | old
      · exact extended.colored
      · exact colored name (waiting.visited name old)
    · intro name isGroup
      rcases waiting.reached name isGroup with excluded | hasColor | onStack
      · exact .inl excluded
      · exact .inr (.inl (colored name hasColor))
      · rcases mem_cons.mp onStack with rfl | later
        · exact .inr (.inl extended.colored)
        · exact .inr (.inr (mem_append_right _ later))
    · rw [extended.visitedGroups, length_reverse]
      apply Stack.credit_insert (waiting.known groupName (by simp)) taken.1
      refine (length_filter_le _ _).trans ?_
      rw [length_map]
      exact short

variable (env matrix group2AutoColor) in
theorem foldl_colorRemaining (nonempty : colors ≠ []) (offered : ∀ color ∈ colors, good color)
    (groupNames : List String) (within : coloring.Within good) :
    (groupNames.foldl (colorRemaining env matrix group2AutoColor colors) coloring).Within good ∧
      ∀ name, name ∈ groupNames ∨ find name coloring.group2AssignedColor ≠ none →
        find name (groupNames.foldl (colorRemaining env matrix group2AutoColor colors)
          coloring).group2AssignedColor ≠ none := by
  induction groupNames generalizing coloring with
  | nil => exact ⟨within, fun _ given => given.resolve_left not_mem_nil⟩
  | cons groupName _ ih =>
    have first : (colorRemaining env matrix group2AutoColor colors coloring groupName).Within good ∧
        ∀ name, name = groupName ∨ find name coloring.group2AssignedColor ≠ none →
          find name (colorRemaining env matrix group2AutoColor colors coloring
            groupName).group2AssignedColor ≠ none := by
      unfold colorRemaining
      cases found : find groupName coloring.group2AssignedColor with
      | some =>
        refine ⟨within, ?_⟩
        rintro name (rfl | colored)
        · simp [found]
        · exact colored
      | none =>
        refine ⟨within.colorGroup nonempty offered, ?_⟩
        rintro name (rfl | colored)
        · exact extendsColoring_colorGroup.colored
        · obtain ⟨color, isColor⟩ := ne_none_iff_exists'.mp colored
          simp [extendsColoring_colorGroup.keeps name color isColor]
    obtain ⟨kept, colored⟩ := ih first.1
    refine ⟨kept, fun name given => colored name ?_⟩
    rcases given with member | isColor
    · rcases mem_cons.mp member with rfl | later
      · exact .inr (first.2 _ (.inl rfl))
      · exact .inl later
    · exact .inr (first.2 name (.inr isColor))

omit [Power R] in
theorem boundedRows_keys (matrix : InterferenceMatrix R) (visitStack : List String) :
    BoundedRows matrix (matrix.flatMap Prod.snd).length
      (visitStack ++ (matrix.flatMap Prod.snd).map Prod.fst).toFinset := by
  intro _ row isRow
  have member := AssocList.mem_of_find isRow
  have within : ∀ entry ∈ row, entry ∈ matrix.flatMap Prod.snd := by
    intro _ isEntry
    exact mem_flatMap.mpr ⟨_, member, isEntry⟩
  refine ⟨?_, ?_⟩
  · rw [length_flatMap]
    exact single_le_sum (fun _ _ => zero_le _) _ (mem_map.mpr ⟨_, member, rfl⟩)
  · intro _ isNeighbor
    obtain ⟨entry, isEntry, rfl⟩ := mem_map.mp isNeighbor
    rw [List.mem_toFinset]
    exact mem_append_right _ (mem_map_of_mem (within entry isEntry))

omit [Power R] in
theorem credit_le_colorRounds (matrix : InterferenceMatrix R) (visitStack : List String)
    (visited : Finset String) :
    visitStack.length + Stack.credit
        (visitStack ++ (matrix.flatMap Prod.snd).map Prod.fst).toFinset visited
        (matrix.flatMap Prod.snd).length ≤ colorRounds matrix visitStack := by
  have few := Stack.credit_le (visitStack ++ (matrix.flatMap Prod.snd).map Prod.fst).toFinset
    visited (matrix.flatMap Prod.snd).length
  have keys : (visitStack ++ (matrix.flatMap Prod.snd).map Prod.fst).toFinset.card ≤
      visitStack.length + (matrix.flatMap Prod.snd).length := by
    refine (toFinset_card_le _).trans_eq ?_
    rw [length_append, length_map]
  have product := mul_le_mul_right ((matrix.flatMap Prod.snd).length + 1) keys
  unfold colorRounds
  dsimp only
  omega

end Visit

/-- Every group gets a color: one to choose from, or one that the user has given to a group. -/
theorem allocateNewLinkColors_spec (env : Interference R) {good : Int → Prop} {colors : List Int}
    (nonempty : colors ≠ []) (offered : ∀ color ∈ colors, good color)
    (group2Links : GroupNameToLinkNames) (w : TopologyWrapper) (helper : ConfigHelper)
    {group2UserColor : GroupName2Color}
    (user : ∀ name color, find name group2UserColor = some color → good color)
    (group2AutoColor : GroupName2Color) (shouldAccountForChannel : Bool) {name linkName : String}
    (inGroup : group2Links.Holds name linkName) :
    ∃ color, find name (allocateNewLinkColors env group2Links w helper group2UserColor
      group2AutoColor shouldAccountForChannel colors) = some color ∧ good color := by
  unfold allocateNewLinkColors
  dsimp only
  generalize getInterferenceMatrix env w helper group2Links shouldAccountForChannel = matrix
  generalize env.getOccSolution _ _ _ = occResult
  generalize isStack : ((env.entries group2UserColor).map Prod.fst).reverse ++
    (env.entries group2Links).map Prod.fst = visitStack
  have started : ColoringWaits good ((env.entries group2Links).map Prod.fst) occResult
      (visitStack ++ (matrix.flatMap Prod.snd).map Prod.fst).toFinset visitStack
      { group2AssignedColor := group2UserColor, visitedGroups := ∅ } := by
    refine ⟨?_, by simp, user, ?_⟩
    · intro _ member
      rw [List.mem_toFinset]
      exact mem_append_left _ member
    · intro _ isGroup
      rw [← isStack]
      exact .inr (.inr (mem_append_right _ isGroup))
  have waiting := Stack.drain_rule_id
    (ColoringWaits good ((env.entries group2Links).map Prod.fst) occResult
      (visitStack ++ (matrix.flatMap Prod.snd).map Prod.fst).toFinset)
    (fun coloring => Stack.credit
      (visitStack ++ (matrix.flatMap Prod.snd).map Prod.fst).toFinset coloring.visitedGroups
      (matrix.flatMap Prod.snd).length)
    (fun _ _ _ waiting =>
      waiting.round env group2AutoColor (boundedRows_keys matrix visitStack) nonempty offered)
    started (credit_le_colorRounds matrix visitStack ∅)
  generalize Id.run (Stack.drain _ (colorRounds matrix visitStack) visitStack _) = coloring
    at waiting ⊢
  obtain ⟨within, colored⟩ := foldl_colorRemaining env matrix group2AutoColor nonempty offered
    (remainingGroups env matrix occResult) waiting.within
  obtain ⟨links, found, _⟩ := inGroup
  have isGroup : name ∈ (env.entries group2Links).map Prod.fst :=
    mem_map.mpr ⟨(name, links), mem_entries.mpr found, rfl⟩
  obtain ⟨color, isColor⟩ := ne_none_iff_exists'.mp (colored name (by
    rcases waiting.reached name isGroup with excluded | hasColor | onStack
    · exact .inl (by simp [remainingGroups, env.order.mem_toList, excluded])
    · exact .inr hasColor
    · cases onStack))
  exact ⟨color, isColor, within name color isColor⟩

end Colors

open Guarded TopologyWrapper KeyIndex

/-- What the assignments use apart from the topology and the config helper. -/
structure NetworkEnv (R : Type) where
  config : ConfigEnv
  mac : MacUtils
  interference : Interference R
  /-- `topologyParams.enabledChannels` of the controller config. -/
  enabledChannels : String := ""

/-- `group2Color[groupName] = color.value()`, if there is a color. -/
def storeColor (groupName : String) (color : Option Int) (group2Color : GroupName2Color) :
    GroupName2Color :=
  match color with
  | none => group2Color
  | some color => upsert color groupName (fun _ => color) group2Color

variable {groupName : String} {link : Link}

section Groups

variable {R : Type} (interference : Interference R)

/-- Collect a user and an automatic color of every group from the names of its links. -/
def collectGroups (collect : List String → Except LinkConfigError (Option Int × Option Int))
    (group2Links : GroupNameToLinkNames) :
    Except LinkConfigError (GroupName2Color × GroupName2Color) :=
  (interference.entries group2Links).foldlM (fun colors group => do
    let (userColor, autoColor) ← collect (interference.order.toList group.2)
    return (storeColor group.1 userColor colors.1, storeColor group.1 autoColor colors.2)) ([], [])

variable {interference} in
/-- A property of the user colors of all groups holds of what is collected. -/
theorem collectGroups_user {good : Int → Prop}
    {collect : List String → Except LinkConfigError (Option Int × Option Int)}
    (each : ∀ linkNames userColor autoColor,
      collect linkNames = .ok (some userColor, autoColor) → good userColor)
    {group2Links : GroupNameToLinkNames} {colors : GroupName2Color × GroupName2Color}
    (collected : collectGroups interference collect group2Links = .ok colors) (name : String)
    (color : Int) (isUser : find name colors.1 = some color) : good color := by
  refine except_foldlM_preserves (fun colors : GroupName2Color × GroupName2Color =>
    ∀ name color, find name colors.1 = some color → good color) ?_ collected ?_ name color isUser
  · intro _ _ found
    cases found
  · intro before group after holds ran name color found
    obtain ⟨⟨userColor, autoColor⟩, isColor, stored⟩ := except_bind_eq_ok.mp ran
    cases stored
    cases userColor with
    | none => exact holds name color found
    | some userColor =>
      dsimp only [storeColor] at found
      rw [find_upsert] at found
      split at found
      · cases found
        exact each _ _ _ isColor
      · exact holds name color found

variable (w : TopologyWrapper)

/-- The links of all groups in the order in which they are visited, each with the name of its group.
-/
def groupLinks : List (String × Link) :=
  (interference.entries (getLinkGroups w)).flatMap fun group =>
    (interference.order.toList group.2).filterMap fun linkName =>
      (w.getLink linkName).map fun link => (group.1, link)

variable {interference w}

theorem mem_groupLinks (index : w.ExactLinks)
    :
    (groupName, link) ∈ groupLinks interference w ↔
      link ∈ w.topology.links ∧ (getLinkGroups w).Holds groupName link.name := by
  unfold groupLinks GroupNameToLinkNames.Holds
  simp only [mem_flatMap, mem_filterMap, mem_entries, interference.order.mem_toList]
  constructor
  · rintro ⟨⟨_, linkNames⟩, isGroup, _, inGroup, found⟩
    obtain ⟨_, isLink, equal⟩ := Option.map_eq_some_iff.mp found
    obtain ⟨rfl, rfl⟩ := Prod.mk.inj equal
    obtain ⟨member, rfl⟩ := (index.find_eq_some_iff).mp isLink
    exact ⟨member, linkNames, isGroup, inGroup⟩
  · rintro ⟨member, linkNames, isGroup, inGroup⟩
    refine ⟨(groupName, linkNames), isGroup, link.name, inGroup, ?_⟩
    have isLink : w.getLink link.name = some link := (index.find_eq_some_iff).mpr ⟨member, rfl⟩
    rw [isLink]
    rfl

variable (interference w) in
theorem updates_groupLinks {env : ConfigEnv} (working : env.Working)
    (writes : String × Link → List ParamWrite) :
    Updates ((groupLinks interference w).forM fun item =>
        discard (setParams env false (writes item)))
      (·.put false ((groupLinks interference w).flatMap writes)) := by
  have updates := Updates.forM fun item (_ : item ∈ groupLinks interference w) =>
    Updates.setParams working false (writes item)
  simpa only [ParamLayers.foldl_put] using updates

/-- A run that plans and then writes: it fails before it writes, or it writes what is planned. -/
theorem run_planned {env : ConfigEnv} (working : env.Working) {helper : ConfigHelper}
    (typed : helper.Typed) (plan : ConfigHelper → Except LinkConfigError GroupName2Color)
    (writes : GroupName2Color → String × Link → List ParamWrite) :
    let program := do
      let assigned ← check plan
      (groupLinks interference w).forM fun item =>
        discard (setParams env false (writes assigned item))
    (∃ e, program.run helper = .error e helper) ∨
      ∃ helper' assigned, program.run helper = .ok ⟨⟩ helper' ∧ plan helper = .ok assigned ∧
        helper'.Typed ∧ helper'.layers =
          helper.layers.put false ((groupLinks interference w).flatMap (writes assigned)) := by
  cases planned : plan helper with
  | error e => exact .inl ⟨e, check_bind_eq_error.mpr (.inl ⟨planned, rfl⟩)⟩
  | ok assigned =>
    obtain ⟨helper', ran, typed', layers⟩ :=
      updates_groupLinks interference w working (writes assigned) helper typed
    exact .inr ⟨helper', assigned, check_bind_eq_ok.mpr ⟨assigned, planned, ran⟩, rfl, typed',
      layers⟩

theorem radio_of_holds (index : w.ExactLinks)
    (isLink : link ∈ w.topology.links)
    (inGroup : (getLinkGroups w).Holds groupName link.name) : isRadioLink link = true := by
  obtain ⟨same, isSame, sameName, radio⟩ := Holds.radioLink index.nodup inGroup
  have equal : same = link := inj_on_of_nodup_map index.nodup isSame isLink sameName
  exact equal ▸ radio

end Groups

/-! ### What the links of a group show -/

variable {groups : GroupNameToLinkNames}

/-- Parameters of links: where they are kept, and under which keys. -/
structure LinkSetting where
  ends : Link → List (String × String)
  params : String → FwParams
  keys : List FwKey
  /-- An end has a MAC of the link. -/
  ofLink : ∀ link, ∀ linkEnd ∈ ends link, linkEnd.2 = link.aNodeMac ∨ linkEnd.2 = link.zNodeMac
  injective : ∀ mac other, params mac = params other → mac = other

namespace LinkSetting

variable (setting : LinkSetting) (w : TopologyWrapper)

/-- What the user has set for the links of a group, in the network or in the node layer. -/
def Held (layers : ParamLayers) (groupName : String) (held : Option Int) : Prop :=
  ∃ link ∈ w.topology.links, (getLinkGroups w).Holds groupName link.name ∧
    ∃ linkEnd ∈ setting.ends link, ∃ key ∈ setting.keys,
      layers.user key linkEnd.1 (setting.params linkEnd.2) = held

/-- The writes for a link set all its parameters to one value. -/
def SetBy (macUtils : MacUtils) (writes : List ParamWrite) (link : Link) (value : Int) : Prop :=
  ∀ nodeName params key set, (∃ write ∈ writes, write.Sets nodeName params key set) ↔
    (∃ linkEnd ∈ setting.ends link, nodeName = linkEnd.1 ∧
      params = setting.params (getStandardizedMac macUtils linkEnd.2)) ∧
      key ∈ setting.keys ∧ set = some value

variable {setting w} {macUtils : MacUtils}

variable {linkEnd : String × String}

theorem standard (standard : StandardMacs macUtils w)
    (isLink : link ∈ w.topology.links)
    (isEnd : linkEnd ∈ setting.ends link) : getStandardizedMac macUtils linkEnd.2 = linkEnd.2 := by
  obtain ⟨atA, atZ⟩ := standard link isLink
  rcases setting.ofLink link linkEnd isEnd with same | same
  · rw [same, atA]
  · rw [same, atZ]

/-- Where the links of the groups are written to, what the user has set goes first. -/
theorem all_groupLinks {R : Type} (interference : Interference R)
    (index : w.ExactLinks)
    (standardMacs : StandardMacs macUtils w) {writes : String × Link → List ParamWrite}
    {value : String → Int}
    (sets : ∀ groupName link, isRadioLink link = true →
      setting.SetBy macUtils (writes (groupName, link)) link (value groupName))
    (isLink : link ∈ w.topology.links)
    (inGroup : (getLinkGroups w).Holds groupName link.name)
    (isEnd : linkEnd ∈ setting.ends link) {key : FwKey} (isKey : key ∈ setting.keys)
    (layers : ParamLayers) :
    (layers.put false ((groupLinks interference w).flatMap writes)).all key linkEnd.1
        (setting.params linkEnd.2) =
      some ((layers.user key linkEnd.1 (setting.params linkEnd.2)).getD (value groupName)) := by
  have auto : ((groupLinks interference w).flatMap writes).foldl ParamWrite.onto layers.auto
      linkEnd.1 (setting.params linkEnd.2) key = some (value groupName) := by
    apply foldl_onto_of_sets
    · obtain ⟨write, member, isSet⟩ := (sets groupName link (radio_of_holds index isLink inGroup)
        linkEnd.1 (setting.params linkEnd.2) key _).mpr
        ⟨⟨linkEnd, isEnd, rfl, by rw [standard standardMacs isLink isEnd]⟩, isKey, rfl⟩
      exact ⟨write, mem_flatMap.mpr
        ⟨(groupName, link), (mem_groupLinks index).mpr ⟨isLink, inGroup⟩, member⟩, isSet⟩
    · intro write member _ isSet
      obtain ⟨⟨otherGroup, otherLink⟩, isItem, written⟩ := mem_flatMap.mp member
      obtain ⟨isOther, inOther⟩ := (mem_groupLinks index).mp isItem
      obtain ⟨⟨otherEnd, isOtherEnd, _, sameParams⟩, _, rfl⟩ :=
        (sets otherGroup otherLink (radio_of_holds index isOther inOther) _ _ _ _).mp
          ⟨write, written, isSet⟩
      -- a write to the same place is for a link with the same radio
      rw [standard standardMacs isOther isOtherEnd] at sameParams
      have sameMac := setting.injective _ _ sameParams
      have shared : sharesRadio link otherLink := by
        have ofLink := setting.ofLink link linkEnd isEnd
        have ofOther := setting.ofLink otherLink otherEnd isOtherEnd
        unfold sharesRadio
        grind
      rw [Holds.eq_of_sharesRadio index.nodup isLink isOther shared inGroup inOther]
  change (layers.user key linkEnd.1 (setting.params linkEnd.2)).or
    (((groupLinks interference w).flatMap writes).foldl ParamWrite.onto layers.auto linkEnd.1
      (setting.params linkEnd.2) key) = _
  rw [auto]
  cases layers.user key linkEnd.1 (setting.params linkEnd.2) with
  | none | some value => rfl

end LinkSetting

/-! ### A small network -/

/-- The links of one radio with two others. -/
def twoLinksOneRadio : TopologyWrapper :=
  indexed
    { nodes := [{ name := "a" }, { name := "b" }, { name := "c" }]
      links := [radioLink "a" "02:00:00:00:00:01" "b" "02:00:00:00:00:02",
        radioLink "a" "02:00:00:00:00:01" "c" "02:00:00:00:00:03"] }

theorem twoLinksOneRadio_index : twoLinksOneRadio.ExactLinks := by
  apply refresh_exact
  · decide +kernel
  · intro _ _ stored
    cases stored

def linkOverride (responderMac : String) (values : List (FwKey × Int)) : Json :=
  .object [("linkParamsOverride", .object [(responderMac, .object [("fwParams",
    .object (values.map fun (key, value) => (key.name, .int value)))])])]

/-- An environment in which groups do not interfere. -/
def quietNetwork : NetworkEnv Rat where
  config := .withoutFiles
  mac := .ofCanonical ["02:00:00:00:00:01", "02:00:00:00:00:02", "02:00:00:00:00:03"]
    (by decide +kernel)
  interference :=
    { order := .sorted
      estimate := fun _ _ _ _ _ => 0
      getOccSolution := fun _ _ _ => ∅ }

theorem quietNetwork_working : quietNetwork.config.Working :=
  fun value => ⟨value, rfl, .refl _⟩

theorem twoLinksOneRadio_standard : StandardMacs quietNetwork.mac twoLinksOneRadio := by
  decide +kernel

/-- The two links are in one group. -/
example : getLinkGroups twoLinksOneRadio = [("link-a-b", {"link-a-b", "link-a-c"})] := by
  decide +kernel

end Terragraph
