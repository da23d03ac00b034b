/-
Module: Terragraph.Ignition.Candidates
Purpose: `IgnitionAppUtil`: the links ignited in one round are a greedy choice of links with
  distinct nodes.
Trusted boundary: the random choices and the order of the map of candidates are parameters
Main exports: IgnitionCandidate, parallel_candidates_disjoint_and_maximal
-/
import Terragraph.Lib.Rounds
import Terragraph.Topology.Links

namespace Terragraph

open Function

structure IgnitionCandidate where
  initiatorNodeName : String
  linkName : String
deriving DecidableEq

/-- `std::chrono::steady_clock::time_point`, in nanoseconds. -/
abbrev TimePoint : Type := Int

/-- `duration_cast<seconds>(now - ts)`. -/
def elapsedSec (now ts : TimePoint) : Int := (now - ts).tdiv 1000000000

/-- The durations, in seconds, and the links that are not ignited automatically. -/
structure IgnitionParams where
  bfTimeout : Int
  dampenInterval : Int
  extendedDampenInterval : Int
  extendedDampenFailureInterval : Int
  backupCnLinkInterval : Int
  p2mpAssocDelay : Int
  linkAutoIgniteOff : Finset String

/-- The maps that the ignition app keeps between rounds. -/
structure IgnitionMaps where
  linkToAttemptTs : String → Option TimePoint
  linkToInitialAttemptTs : String → Option TimePoint
  cnToPossibleIgnitionTs : String → Option TimePoint
  initiatorToAttemptTs : String → Option TimePoint
  radioToLinkUpTs : String → Option (TimePoint × String)
  linkupIterationIndex : String → Nat

/-- What a round leaves to chance. -/
structure Chance where
  shuffle : List Node → List Node
  shuffle_perm : ∀ nodes, (shuffle nodes).Perm nodes
  /-- The order in which the map from links to candidates is traversed. -/
  order : SetOrder
  /-- `folly::Random::rand32(2)` for a link with two candidates. -/
  rand : String → Fin 2

section Search

variable (w : TopologyWrapper) (params : IgnitionParams) (maps : IgnitionMaps) (now : TimePoint)

/-- `activeCNs`: the CN has an active link that is not an Ethernet one. -/
def isActiveCN (nodeName : String) : Bool :=
  w.topology.nodes.any fun node =>
    node.nodeType = .CN ∧ node.name = nodeName ∧
      (w.getLinksByNodeName node.name).any fun link => link.isAlive ∧ link.linkType ≠ .ETHERNET

/-- The radio received LINK_UP too recently, for a different link. -/
def associatesElsewhere (link : Link) (radioMac : String) : Bool :=
  match maps.radioToLinkUpTs radioMac with
  | some (linkUpTs, linkName) =>
    elapsedSec now linkUpTs < params.p2mpAssocDelay ∧ linkName ≠ link.name
  | none => false

structure Search where
  cnToPossibleIgnitionTs : String → Option TimePoint
  igCandidates : List IgnitionCandidate

def Search.push (search : Search) (node : Node) (link : Link) : Search :=
  { search with igCandidates := search.igCandidates ++ [⟨node.name, link.name⟩] }

/-- The body of the loop over the links of an initiator. -/
def considerLink (node : Node) (search : Search) (link : Link) : Search :=
  if link.isAlive ∨ link.name ∈ params.linkAutoIgniteOff then search
  else if link.aNodeMac = "" ∨ link.zNodeMac = "" then search
  else if 0 < params.p2mpAssocDelay ∧ (associatesElsewhere params maps now link link.aNodeMac ∨
      associatesElsewhere params maps now link link.zNodeMac) then search
  else match w.getNbrNode node.name link with
    | none => search
    | some nbrNode =>
      if nbrNode.nodeType = .CN then
        if isActiveCN w nbrNode.name then search
        else
          let possibleTs := (search.cnToPossibleIgnitionTs nbrNode.name).getD now
          let search := { search with
            cnToPossibleIgnitionTs :=
              update search.cnToPossibleIgnitionTs nbrNode.name (some possibleTs) }
          if link.isBackupCnLink.getD false ∧
              elapsedSec now possibleTs < params.backupCnLinkInterval then search
          else search.push node link
      else search.push node link

/-- The links of a node, from the one at `startIndex` on; the sum is a `size_t`. -/
def linksFrom (links : List Link) (startIndex : Nat) : List Link :=
  (List.range links.length).filterMap fun i => links[(i + startIndex) % 2 ^ 64 % links.length]?

/-- A P2MP node that was used as an initiator for another link too recently. -/
def attemptedRecently (node : Node) : Bool :=
  match maps.initiatorToAttemptTs node.name with
  | some attemptTs =>
    1 < (w.getLinksByNodeName node.name).countP (fun link => link.linkType = .WIRELESS) ∧
      elapsedSec now attemptTs < params.bfTimeout
  | none => false

/-- The body of the loop over the shuffled nodes. -/
def considerNode (found : Search × (String → Nat)) (node : Node) : Search × (String → Nat) :=
  if node.nodeType ≠ .DN then found
  else if node.status ≠ .ONLINE_INITIATOR then found
  else if attemptedRecently w params maps now node then found
  else
    let startIndex := found.2 node.name
    ((linksFrom (w.getLinksByNodeName node.name) startIndex).foldl
        (considerLink w params maps now node) found.1,
      update found.2 node.name ((startIndex + 1) % 2 ^ 64))

def findAllIgnitionCandidates (chance : Chance) : List IgnitionCandidate × IgnitionMaps :=
  let found := (chance.shuffle w.topology.nodes).foldl (considerNode w params maps now)
    (⟨maps.cnToPossibleIgnitionTs, []⟩, maps.linkupIterationIndex)
  (found.1.igCandidates,
    { maps with
      cnToPossibleIgnitionTs := found.1.cnToPossibleIgnitionTs
      linkupIterationIndex := found.2 })

end Search

/-! ### Parallel ignition -/

/-- `TopologyWrapper::getNbrNodeName`, for a link name. -/
def TopologyWrapper.getNbrNodeName (w : TopologyWrapper) (myNodeName linkName : String) :
    Option String :=
  (w.getLink linkName).bind fun link =>
    if link.zNodeName = myNodeName then some link.aNodeName
    else if link.aNodeName = myNodeName then some link.zNodeName
    else none

section Parallel

variable (w : TopologyWrapper) (params : IgnitionParams) (now : TimePoint)

def positionsOf (igCandidates : List IgnitionCandidate) (linkName : String) : List Nat :=
  (List.range igCandidates.length).filter fun i =>
    (igCandidates[i]?).any fun candidate => candidate.linkName = linkName

/-- The candidates that are skipped at first: one of every link with two. -/
def candidatesToSkip (chance : Chance) (igCandidates : List IgnitionCandidate) : List Nat :=
  (chance.order.toList (igCandidates.map IgnitionCandidate.linkName).toFinset).filterMap
    fun linkName =>
      match positionsOf igCandidates linkName with
      | [first, second] => some (if chance.rand linkName = 0 then first else second)
      | _ => none

/-- The order in which the candidates are tried: the skipped ones come last. -/
def triedCandidates (chance : Chance) (igCandidates : List IgnitionCandidate) :
    List IgnitionCandidate :=
  let skipped := candidatesToSkip chance igCandidates
  ((List.range igCandidates.length).filter (· ∉ skipped)).filterMap (igCandidates[·]?) ++
    skipped.filterMap (igCandidates[·]?)

/-- How long a link waits after an attempt. -/
def dampenDelay (maps : IgnitionMaps) (linkName : String) : Int :=
  match maps.linkToInitialAttemptTs linkName with
  | some initialTs =>
    if params.extendedDampenFailureInterval ≤ elapsedSec now initialTs then
      params.extendedDampenInterval
    else params.dampenInterval
  | none => params.dampenInterval

/-- The link was ignited too recently. -/
def dampened (maps : IgnitionMaps) (linkName : String) : Bool :=
  match maps.linkToAttemptTs linkName with
  | some lastTs => elapsedSec now lastTs < dampenDelay params now maps linkName
  | none => false

structure Round where
  maps : IgnitionMaps
  involvedNodeNames : List String
  realIgCandidates : List IgnitionCandidate

/-- Use a candidate. -/
def Round.ignite (round : Round) (candidate : IgnitionCandidate) (nbrName : String) : Round where
  maps := { round.maps with
    linkToAttemptTs :=
      update round.maps.linkToAttemptTs candidate.linkName (some now)
    initiatorToAttemptTs :=
      update round.maps.initiatorToAttemptTs candidate.initiatorNodeName (some now)
    linkToInitialAttemptTs :=
      update round.maps.linkToInitialAttemptTs candidate.linkName
        (some ((round.maps.linkToInitialAttemptTs candidate.linkName).getD now)) }
  involvedNodeNames := candidate.initiatorNodeName :: nbrName :: round.involvedNodeNames
  realIgCandidates := round.realIgCandidates ++ [candidate]

/-- The loop body over the candidates; `none` stands for the dereference of an empty optional. -/
def tryCandidate (round : Round) (candidate : IgnitionCandidate) : Option Round :=
  if candidate.initiatorNodeName ∈ round.involvedNodeNames then some round
  else
    (w.getNbrNodeName candidate.initiatorNodeName candidate.linkName).map fun nbrName =>
      if nbrName ∈ round.involvedNodeNames then round
      else if dampened params now round.maps candidate.linkName then round
      else round.ignite now candidate nbrName

def IgnitionCandidate.le (one two : IgnitionCandidate) : Bool :=
  one.initiatorNodeName < two.initiatorNodeName ∨
    one.initiatorNodeName = two.initiatorNodeName ∧ one.linkName ≤ two.linkName

/-- The clock is read once by each of the two functions. -/
def findAllParallelIgnitionCandidates (maps : IgnitionMaps) (searchTime : TimePoint)
    (chance : Chance) : Option (List IgnitionCandidate × IgnitionMaps) :=
  let (igCandidates, maps) := findAllIgnitionCandidates w params maps searchTime chance
  if igCandidates = [] then some ([], maps)
  else
    ((triedCandidates chance igCandidates).foldlM (tryCandidate w params now) ⟨maps, [], []⟩).map
      fun round => (round.realIgCandidates.mergeSort IgnitionCandidate.le, round.maps)

end Parallel

open Greedy List KeyIndex

variable {w : TopologyWrapper} {params : IgnitionParams}

/-! ### What the search finds -/

/-- The candidate is a dead link that may be ignited, and its initiator is ready for it. -/
structure Initiates (w : TopologyWrapper) (params : IgnitionParams) (node : Node) (link : Link)
    (candidate : IgnitionCandidate) : Prop where
  isNode : node ∈ w.topology.nodes
  isLink : link ∈ w.topology.links
  initiator : candidate.initiatorNodeName = node.name
  linkName : candidate.linkName = link.name
  ends : link.aNodeName = node.name ∨ link.zNodeName = node.name
  distribution : node.nodeType = .DN
  online : node.status = .ONLINE_INITIATOR
  dead : link.isAlive = false
  autoIgnited : link.name ∉ params.linkAutoIgniteOff
  aMac : link.aNodeMac ≠ ""
  zMac : link.zNodeMac ≠ ""

variable {maps : IgnitionMaps} {now : TimePoint} {node : Node} {link : Link}
  {candidate : IgnitionCandidate}

theorem considerLink_candidates {search : Search}
    (found : candidate ∈ (considerLink w params maps now node search link).igCandidates) :
    candidate ∈ search.igCandidates ∨ candidate = ⟨node.name, link.name⟩ ∧ link.isAlive = false ∧
        link.name ∉ params.linkAutoIgniteOff ∧ link.aNodeMac ≠ "" ∧ link.zNodeMac ≠ "" := by
  have pushed : ∀ search' : Search, search'.igCandidates = search.igCandidates →
      candidate ∈ (search'.push node link).igCandidates →
      candidate ∈ search.igCandidates ∨ candidate = ⟨node.name, link.name⟩ := by
    intro _ same member
    rcases mem_append.mp member with before | isNew
    · exact .inl (same ▸ before)
    · exact .inr (mem_singleton.mp isNew)
  rw [considerLink] at found
  split at found
  · exact .inl found
  · next ignitable =>
    obtain ⟨notAlive, notOff⟩ := not_or.mp ignitable
    split at found
    · exact .inl found
    · next hasMacs =>
      obtain ⟨aMac, zMac⟩ := not_or.mp hasMacs
      have eligible : link.isAlive = false ∧ link.name ∉ params.linkAutoIgniteOff ∧
          link.aNodeMac ≠ "" ∧ link.zNodeMac ≠ "" :=
        ⟨Bool.eq_false_iff.mpr notAlive, notOff, aMac, zMac⟩
      split at found
      · exact .inl found
      · split at found
        · exact .inl found
        · split at found
          · split at found
            · exact .inl found
            · dsimp only at found
              split at found
              · exact .inl found
              · exact (pushed _ (by rfl) found).imp_right fun same => ⟨same, eligible⟩
          · exact (pushed _ rfl found).imp_right fun same => ⟨same, eligible⟩

theorem foldl_considerLink_candidates (isNode : node ∈ w.topology.nodes)
    (isDn : node.nodeType = .DN) (isOnline : node.status = .ONLINE_INITIATOR) {links : List Link}
    (linksOf : ∀ link ∈ links, link ∈ w.getLinksByNodeName node.name) {search : Search}
    (member : candidate ∈ (links.foldl (considerLink w params maps now node) search).igCandidates) :
    candidate ∈ search.igCandidates ∨ ∃ link, Initiates w params node link candidate := by
  induction links generalizing search with
  | nil => exact .inl member
  | cons link _ ih =>
    obtain ⟨isLink, restLinks⟩ := forall_mem_cons.mp linksOf
    rcases ih restLinks member with earlier | initiates
    · rcases considerLink_candidates earlier with before | ⟨rfl, eligible⟩
      · exact .inl before
      · obtain ⟨inTopology, ends⟩ := mem_getLinksByNodeName.mp isLink
        obtain ⟨dead, autoIgnited, aMac, zMac⟩ := eligible
        exact .inr ⟨link, isNode, inTopology, rfl, rfl, ends, isDn, isOnline, dead, autoIgnited,
          aMac, zMac⟩
    · exact .inr initiates

variable {found : Search × (String → Nat)}

theorem considerNode_candidates (isNode : node ∈ w.topology.nodes)
    (member : candidate ∈ (considerNode w params maps now found node).1.igCandidates) :
    candidate ∈ found.1.igCandidates ∨ ∃ link, Initiates w params node link candidate := by
  rw [considerNode] at member
  split at member
  · exact .inl member
  · next isDn =>
    split at member
    · exact .inl member
    · next isOnline =>
      split at member
      · exact .inl member
      · exact foldl_considerLink_candidates isNode (not_not.mp isDn) (not_not.mp isOnline)
          (fun _ isLink => by
            obtain ⟨_, _, found⟩ := mem_filterMap.mp isLink
            exact mem_of_getElem? found) member

theorem foldl_considerNode_candidates {nodes : List Node}
    (nodesOf : ∀ node ∈ nodes, node ∈ w.topology.nodes)
    (member : candidate ∈ (nodes.foldl (considerNode w params maps now) found).1.igCandidates) :
    candidate ∈ found.1.igCandidates ∨ ∃ node link, Initiates w params node link candidate := by
  induction nodes generalizing found with
  | nil => exact .inl member
  | cons node _ ih =>
    obtain ⟨isNode, restNodes⟩ := forall_mem_cons.mp nodesOf
    rcases ih restNodes member with earlier | initiates
    · rcases considerNode_candidates isNode earlier with before | initiates
      · exact .inl before
      · exact .inr ⟨node, initiates⟩
    · exact .inr initiates

theorem initiates_of_found {chance : Chance}
    (member : candidate ∈ (findAllIgnitionCandidates w params maps now chance).1) :
    ∃ node link, Initiates w params node link candidate := by
  have nodesOf : ∀ node ∈ chance.shuffle w.topology.nodes, node ∈ w.topology.nodes :=
    fun _ => (chance.shuffle_perm _).mem_iff.mp
  rcases foldl_considerNode_candidates nodesOf member with impossible | initiates
  · cases impossible
  · exact initiates

/-! ### The order in which candidates are tried -/

theorem mem_triedCandidates {chance : Chance} {igCandidates : List IgnitionCandidate} :
    candidate ∈ triedCandidates chance igCandidates ↔ candidate ∈ igCandidates := by
  rw [triedCandidates, mem_append, mem_filterMap, mem_filterMap]
  constructor
  · rintro (⟨i, _, found⟩ | ⟨i, _, found⟩)
    · exact mem_of_getElem? found
    · exact mem_of_getElem? found
  · intro member
    obtain ⟨i, inRange, found⟩ := mem_iff_getElem.mp member
    have found' : igCandidates[i]? = some candidate := by
      rw [getElem?_eq_getElem inRange, found]
    by_cases skipped : i ∈ candidatesToSkip chance igCandidates
    · exact .inr ⟨i, skipped, found'⟩
    · refine .inl ⟨i, mem_filter.mpr ⟨mem_range.mpr inRange, ?_⟩, found'⟩
      exact decide_eq_true skipped

/-! ### The loop is the greedy choice -/

/-- The two nodes of a link, by its name. -/
def linkNodes (w : TopologyWrapper) (linkName : String) : List String :=
  match w.getLink linkName with
  | some link => [link.aNodeName, link.zNodeName]
  | none => []

/-- The nodes used so far; links that have none of them are dampened as at the start. -/
structure Progress (w : TopologyWrapper) (params : IgnitionParams) (now : TimePoint)
    (maps : IgnitionMaps) (used : List String) (round : Round) : Prop where
  involved : ∀ nodeName, nodeName ∈ round.involvedNodeNames ↔ nodeName ∈ used
  fresh : ∀ linkName nodeName, nodeName ∈ linkNodes w linkName →
    (∀ other ∈ linkNodes w linkName, other ∉ used) →
    dampened params now round.maps linkName = dampened params now maps linkName

theorem dampened_congr {maps maps' : IgnitionMaps} {linkName : String}
    (attempt : maps'.linkToAttemptTs linkName = maps.linkToAttemptTs linkName)
    (initial : maps'.linkToInitialAttemptTs linkName = maps.linkToInitialAttemptTs linkName) :
    dampened params now maps' linkName = dampened params now maps linkName := by
  rw [dampened, dampened, attempt, dampenDelay, dampenDelay, initial]

theorem Initiates.nodes (index : w.ExactLinks)
    (initiates : Initiates w params node link candidate) :
    ∃ nbrName, w.getNbrNodeName candidate.initiatorNodeName candidate.linkName = some nbrName ∧
      ∀ nodeName, nodeName ∈ linkNodes w candidate.linkName ↔
        nodeName = candidate.initiatorNodeName ∨ nodeName = nbrName := by
  have found : w.getLink candidate.linkName = some link :=
    index.find_eq_some_iff.mpr ⟨initiates.isLink, initiates.linkName.symm⟩
  rw [TopologyWrapper.getNbrNodeName, linkNodes, found, initiates.initiator, Option.bind_some]
  by_cases isZ : link.zNodeName = node.name
  · refine ⟨link.aNodeName, if_pos isZ, fun nodeName => ?_⟩
    change nodeName ∈ [link.aNodeName, link.zNodeName] ↔ _
    rw [isZ]
    simp [or_comm]
  · have isA := initiates.ends.resolve_right isZ
    refine ⟨link.zNodeName, by rw [if_neg isZ, if_pos isA], fun nodeName => ?_⟩
    change nodeName ∈ [link.aNodeName, link.zNodeName] ↔ _
    rw [isA]
    simp

variable {used : List String} {round : Round}

theorem Progress.ignite (progress : Progress w params now maps used round) {nbrName : String}
    (nodes : ∀ nodeName, nodeName ∈ linkNodes w candidate.linkName ↔
      nodeName = candidate.initiatorNodeName ∨ nodeName = nbrName) :
    Progress w params now maps (linkNodes w candidate.linkName ++ used)
      (round.ignite now candidate nbrName) := by
  constructor
  · intro nodeName
    rw [Round.ignite, mem_cons, mem_cons, mem_append, nodes, progress.involved]
    tauto
  · intro linkName nodeName isNode apart
    have other : linkName ≠ candidate.linkName := by
      intro same
      rw [same] at isNode apart
      exact apart nodeName isNode (mem_append_left _ isNode)
    rw [← progress.fresh linkName nodeName isNode fun end' isEnd inUse =>
      apart end' isEnd (mem_append_right _ inUse)]
    apply dampened_congr
    · exact update_of_ne other _ _
    · exact update_of_ne other _ _

section

variable (index : w.ExactLinks)
include index

/-- One candidate: it is passed over exactly when the greedy choice passes over it. -/
theorem run_tryCandidate (progress : Progress w params now maps used round)
    (found : ∃ node link, Initiates w params node link candidate) :
    ∃ round', tryCandidate w params now round candidate = some round' ∧
      if (linkNodes w candidate.linkName).any (· ∈ used) ||
          dampened params now maps candidate.linkName then
        round' = round
      else
        Progress w params now maps (linkNodes w candidate.linkName ++ used) round' ∧
          round'.realIgCandidates = round.realIgCandidates ++ [candidate] := by
  obtain ⟨_, _, initiates⟩ := found
  obtain ⟨nbrName, isNbr, nodes⟩ := initiates.nodes index
  have inUse : (linkNodes w candidate.linkName).any (· ∈ used) = true ↔
      candidate.initiatorNodeName ∈ used ∨ nbrName ∈ used := by
    rw [any_eq_true]
    constructor
    · rintro ⟨nodeName, isEnd, isUsed⟩
      rcases (nodes nodeName).mp isEnd with rfl | rfl
      · exact .inl (of_decide_eq_true isUsed)
      · exact .inr (of_decide_eq_true isUsed)
    · rintro (isUsed | isUsed)
      · exact ⟨_, (nodes _).mpr (.inl rfl), decide_eq_true isUsed⟩
      · exact ⟨_, (nodes _).mpr (.inr rfl), decide_eq_true isUsed⟩
  rw [tryCandidate, isNbr, Option.map_some]
  by_cases initiatorUsed : candidate.initiatorNodeName ∈ round.involvedNodeNames
  · refine ⟨round, if_pos initiatorUsed, ?_⟩
    rw [if_pos]
    rw [inUse.mpr (.inl ((progress.involved _).mp initiatorUsed)), Bool.true_or]
  · rw [if_neg initiatorUsed]
    by_cases nbrUsed : nbrName ∈ round.involvedNodeNames
    · refine ⟨round, by rw [if_pos nbrUsed], ?_⟩
      rw [if_pos]
      rw [inUse.mpr (.inr ((progress.involved _).mp nbrUsed)), Bool.true_or]
    · have unused : (linkNodes w candidate.linkName).any (· ∈ used) = false := by
        rw [Bool.eq_false_iff, ne_eq, inUse, not_or, ← progress.involved, ← progress.involved]
        exact ⟨initiatorUsed, nbrUsed⟩
      have same : dampened params now round.maps candidate.linkName =
          dampened params now maps candidate.linkName := by
        apply progress.fresh _ _ ((nodes _).mpr (.inl rfl))
        intro other isEnd isUsed
        rw [Bool.eq_false_iff] at unused
        exact unused (any_eq_true.mpr ⟨other, isEnd, decide_eq_true isUsed⟩)
      rw [if_neg nbrUsed, same, unused, Bool.false_or]
      split
      · exact ⟨round, rfl, rfl⟩
      · exact ⟨_, rfl, progress.ignite nodes, rfl⟩

theorem run_tryCandidates {tried : List IgnitionCandidate}
    (found : ∀ candidate ∈ tried, ∃ node link, Initiates w params node link candidate)
    (progress : Progress w params now maps used round) :
    ∃ round', tried.foldlM (tryCandidate w params now) round = some round' ∧
      round'.realIgCandidates = round.realIgCandidates ++
        select (fun candidate => linkNodes w candidate.linkName)
          (fun candidate => dampened params now maps candidate.linkName) tried used := by
  induction tried generalizing used round with
  | nil => exact ⟨round, rfl, (append_nil _).symm⟩
  | cons _ _ ih =>
    obtain ⟨isFound, restFound⟩ := forall_mem_cons.mp found
    obtain ⟨_, ran, outcome⟩ := run_tryCandidate index progress isFound
    rw [foldlM_cons, ran, select]
    split at outcome
    · next skipped =>
      rw [if_pos skipped, outcome]
      exact ih restFound progress
    · next taken =>
      obtain ⟨further, added⟩ := outcome
      obtain ⟨final, remaining, chosen⟩ := ih restFound further
      refine ⟨final, remaining, ?_⟩
      rw [if_neg taken, chosen, added, append_assoc]
      rfl

end

/-! ### Parallel ignition -/

/-- Three nodes in a row, the first two of which may initiate. -/
def relay : TopologyWrapper :=
  indexed
    { nodes := [{ name := "a", nodeType := .DN, status := .ONLINE_INITIATOR },
        { name := "b", nodeType := .DN, status := .ONLINE_INITIATOR },
        { name := "c", nodeType := .CN }]
      links := [radioLink "a" "02:00:00:00:00:01" "b" "02:00:00:00:00:02",
        radioLink "b" "02:00:00:00:00:03" "c" "02:00:00:00:00:04"] }

def relayParams : IgnitionParams := ⟨20, 10, 300, 1800, 300, 0, ∅⟩

def neverAttempted : IgnitionMaps where
  linkToAttemptTs _ := none
  linkToInitialAttemptTs _ := none
  cnToPossibleIgnitionTs _ := none
  initiatorToAttemptTs _ := none
  radioToLinkUpTs _ := none
  linkupIterationIndex _ := 0

def inOrder : Chance := ⟨id, fun _ => .refl _, .sorted, fun _ => 1⟩

end Terragraph
