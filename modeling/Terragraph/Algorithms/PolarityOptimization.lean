/-
Module: Terragraph.Algorithms.PolarityOptimization
Purpose: `PolarityHelper::optimizePolarity`, which hands polarities on over wireless links, and what
  its result says.
Trusted boundary: human-reviewed embedding of `PolarityHelper.cpp`; the sites that `OccSolver` picks
  are arbitrary
Main exports: optimizePolarity, optimizePolarity_true_iff
-/
import Terragraph.Lib.AssocList
import Terragraph.Lib.Rounds
import Terragraph.Topology.Macs

namespace Terragraph

open TopologyWrapper AssocList

/-! ### Polarities -/

/-- `enum PolarityType`. -/
inductive PolarityType where
  | ODD
  | EVEN
  | HYBRID_ODD
  | HYBRID_EVEN
  | unknown (code : Int)
deriving DecidableEq, Repr

namespace PolarityType

/-- `PolarityHelper::isOddPolarity`. -/
def isOddPolarity : PolarityType → Bool
  | .ODD | .HYBRID_ODD => true
  | _ => false

/-- `PolarityHelper::isEvenPolarity`. -/
def isEvenPolarity : PolarityType → Bool
  | .EVEN | .HYBRID_EVEN => true
  | _ => false

/-- `PolarityHelper::isHybridPolarity`. -/
def isHybridPolarity : PolarityType → Bool
  | .HYBRID_ODD | .HYBRID_EVEN => true
  | _ => false

/-- `PolarityHelper::isValidPolarityType`. -/
def isValidPolarityType : PolarityType → Bool
  | .unknown _ => false
  | _ => true

def opposite (polarity : PolarityType) : PolarityType :=
  if polarity.isOddPolarity then .EVEN else .ODD

end PolarityType

/-- `PolarityHelper::isValidLinkPolarity`. -/
def isValidLinkPolarity : Option PolarityType → Option PolarityType → Bool
  | some aPolarity, some zPolarity =>
    aPolarity.isValidPolarityType && zPolarity.isValidPolarityType &&
      (aPolarity.isOddPolarity && zPolarity.isEvenPolarity ||
        aPolarity.isEvenPolarity && zPolarity.isOddPolarity) &&
      !(aPolarity.isHybridPolarity && zPolarity.isHybridPolarity)
  | _, _ => false

/-- `MacToPolarity`, an unordered map. -/
abbrev MacToPolarity := List (String × PolarityType)

def MacToPolarity.macs (polarities : MacToPolarity) : Finset String :=
  (keys polarities).toFinset

/-! ### MACs, nodes and sites -/

section Maps

variable (w : TopologyWrapper)

/-- The node of a WLAN MAC; later nodes overwrite `mac2NodeName` and `mac2SiteNameMap`. -/
def wlanNode (macAddr : String) : Option Node :=
  w.topology.nodes.reverse.find? fun node => macAddr ∈ node.wlanMacAddrs

/-- The keys of `mac2NodeName`. -/
def wlanMacs : Finset String :=
  (w.topology.nodes.flatMap Node.wlanMacAddrs).toFinset

/-- `mac2NodeName[macAddr]`, the empty text for a MAC that is no WLAN MAC.  The entry that this
reading makes is not seen later: the MAC gets a polarity in the same round. -/
def nodeNameOfMac (macAddr : String) : String :=
  ((wlanNode w macAddr).map Node.name).getD ""

/-- `mac2SiteNameMap[macAddr]`. -/
def siteNameOfMac (macAddr : String) : String :=
  ((wlanNode w macAddr).map Node.siteName).getD ""

/-- `site2MacsMap[siteName]`. -/
def site2Macs (siteName : String) : Finset String :=
  ((w.topology.nodes.filter (·.siteName = siteName)).flatMap Node.wlanMacAddrs).toFinset

/-- The other MAC of a wireless link with two MACs. -/
def otherMac (macAddr : String) (link : Link) : Option String :=
  if link.linkType ≠ .WIRELESS ∨ link.aNodeMac = "" ∨ link.zNodeMac = "" ∨
      (link.aNodeMac ≠ macAddr ∧ link.zNodeMac ≠ macAddr) then
    none
  else some (if link.aNodeMac = macAddr then link.zNodeMac else link.aNodeMac)

def nbrMacs (macAddr : String) : List String :=
  (w.getLinksByNodeName (nodeNameOfMac w macAddr)).filterMap (otherMac macAddr)

end Maps

/-! ### The search -/

/-- What ends the search early: an empty optional is read for a missing node, or the rounds are used
up. -/
inductive PolarityFailure where
  | emptyOptional
  | outOfRounds
deriving DecidableEq

/-- What the search changes. -/
structure PolaritySearch where
  visitStack : List String
  newPolarities : MacToPolarity
  success : Bool
  errMsgs : List String
deriving DecidableEq

section Search

variable (w : TopologyWrapper) (order : SetOrder) (userPolarities oldPolarities : MacToPolarity)
  (hybridMacs : Finset String)

def countPolarities (newPolarities : MacToPolarity) (kind : PolarityType → Bool)
    (macs : Finset String) : Nat :=
  (macs.filter fun mac => (find mac newPolarities).any kind).card

/-- `PolarityHelper::getPreferedPolarity`. -/
def getPreferedPolarity (macAddr : String) (newPolarities : MacToPolarity) : PolarityType :=
  match find macAddr userPolarities with
  | some polarity => polarity
  | none =>
    let old := find macAddr oldPolarities
    let siteMacs := site2Macs w (siteNameOfMac w macAddr)
    let oddCount := countPolarities newPolarities PolarityType.isOddPolarity siteMacs
    let evenCount := countPolarities newPolarities PolarityType.isEvenPolarity siteMacs
    match old with
    | some polarity =>
      if macAddr ∈ hybridMacs ∨ oddCount = evenCount then polarity
      else if oddCount ≥ evenCount then .ODD else .EVEN
    | none => if oddCount ≥ evenCount then .ODD else .EVEN

/-- The body of the loop over the links of the current MAC. -/
def crossLink (polarity : PolarityType) (s : PolaritySearch) (nbrMac : String) : PolaritySearch :=
  match find nbrMac s.newPolarities with
  | some existing =>
    if polarity.opposite ≠ existing then
      { s with
        success := false
        errMsgs := s.errMsgs ++ ["Unsolvable odd cycle exists at " ++ nbrMac] }
    else s
  | none =>
    { s with
      newPolarities := s.newPolarities ++ [(nbrMac, polarity.opposite)]
      visitStack := nbrMac :: s.visitStack }

def currentPolarity (macAddr : String) (newPolarities : MacToPolarity) : PolarityType :=
  (find macAddr newPolarities).getD
    (getPreferedPolarity w userPolarities oldPolarities hybridMacs macAddr newPolarities)

/-- `newPolarities` after the current MAC has been given a polarity. -/
def withCurrent (macAddr : String) (newPolarities : MacToPolarity) : MacToPolarity :=
  if find macAddr newPolarities = none then
    newPolarities ++ [(macAddr, currentPolarity w userPolarities oldPolarities hybridMacs macAddr
      newPolarities)]
  else newPolarities

/-- The MACs of the same site that are pushed to the back of the stack. -/
def sameSiteMacs (followSameSite : Bool) (macAddr : String) (newPolarities : MacToPolarity) :
    Except PolarityFailure (List String) :=
  if followSameSite = true ∧ macAddr ∉ hybridMacs then
    match w.getNode (nodeNameOfMac w macAddr) with
    | none => .error .emptyOptional
    | some node =>
      .ok ((order.toList (site2Macs w node.siteName)).filter fun mac =>
        find mac newPolarities = none)
  else .ok []

/-- One round of the loop of `assignPolarityAndFollow`. -/
def visit (followSameSite : Bool) (s : PolaritySearch) : Except PolarityFailure PolaritySearch :=
  match s.visitStack with
  | [] => .ok s
  | currMacAddr :: rest => do
    let polarity := currentPolarity w userPolarities oldPolarities hybridMacs currMacAddr
      s.newPolarities
    let newPolarities := withCurrent w userPolarities oldPolarities hybridMacs currMacAddr
      s.newPolarities
    let siteMacs ← sameSiteMacs w order hybridMacs followSameSite currMacAddr newPolarities
    return (nbrMacs w currMacAddr).foldl (crossLink polarity)
      { s with visitStack := rest ++ siteMacs, newPolarities }

/-- `PolarityHelper::assignPolarityAndFollow`, as it changes the results of its caller. -/
def assignPolarityAndFollow (followSameSite : Bool) (rounds : Nat) (s : PolaritySearch)
    (macAddr : String) : Except PolarityFailure PolaritySearch :=
  Rounds.loop (fun s => s.visitStack = [])
    (visit w order userPolarities oldPolarities hybridMacs followSameSite) .outOfRounds rounds
    { s with visitStack := [macAddr] }

/-- The loop body of `allocatePolarities`, for MACs that fulfil its condition. -/
def followIf (condition : PolaritySearch → String → Bool) (followSameSite : Bool) (rounds : Nat)
    (s : PolaritySearch) (macAddr : String) : Except PolarityFailure PolaritySearch :=
  if condition s macAddr then
    assignPolarityAndFollow w order userPolarities oldPolarities hybridMacs followSameSite rounds s
      macAddr
  else .ok s

/-- `PolarityHelper::allocatePolarities`: MACs with a user polarity, then those that have got a
polarity and those that have none, apart from hybrid sites, then those of hybrid sites. -/
def allocatePolarities (rounds : Nat) (s : PolaritySearch) :
    Except PolarityFailure PolaritySearch := do
  let s ← (order.toList userPolarities.macs).foldlM
    (followIf w order userPolarities oldPolarities hybridMacs (fun _ _ => true) false rounds) s
  let s ← (order.toList s.newPolarities.macs).foldlM
    (followIf w order userPolarities oldPolarities hybridMacs
      (fun _ mac => mac ∉ hybridMacs) true rounds) s
  let s ← (Ascending.listing (wlanMacs w)).foldlM
    (followIf w order userPolarities oldPolarities hybridMacs
      (fun s mac => find mac s.newPolarities = none ∧ mac ∉ hybridMacs) true rounds) s
  (order.toList hybridMacs).foldlM
    (followIf w order userPolarities oldPolarities hybridMacs
      (fun s mac => find mac s.newPolarities = none) false rounds) s

end Search

/-! ### Hybrid sites -/

/-- The vertex weights of `OccSolver` that `optimizePolarity` uses. -/
inductive VertexWeight where
  | kHighVertexWeight
  | kLowVertexWeight
  | kBiasDownVertexWeight
deriving DecidableEq

section Optimize

variable (w : TopologyWrapper)

/-- The wireless links with two MACs between distribution nodes. -/
def dnLinks : List Link :=
  w.topology.links.filter fun link =>
    w.nodeTypeOf link.aNodeName = some .DN ∧ w.nodeTypeOf link.zNodeName = some .DN ∧
      link.aNodeMac ≠ "" ∧ link.zNodeMac ≠ "" ∧ link.linkType = .WIRELESS

/-- `PolarityHelper::getYStreetMacs`: the MACs that these links name more than once. -/
def getYStreetMacs : Finset String :=
  let macs := (dnLinks w).flatMap fun link => [link.aNodeMac, link.zNodeMac]
  (macs.filter fun mac => 1 < macs.count mac).toFinset

def isHybridSite (polarities : MacToPolarity) (siteName : String) : Bool :=
  0 < countPolarities polarities PolarityType.isOddPolarity (site2Macs w siteName) &&
    0 < countPolarities polarities PolarityType.isEvenPolarity (site2Macs w siteName)

/-- `siteWeights`: user hybrid sites before sites of `getYStreetMacs` before old hybrid sites. -/
def siteWeights (userPolarities oldPolarities : MacToPolarity) (siteName : String) :
    Option VertexWeight :=
  let isSite := (w.topology.sites.map Site.name).contains siteName
  if isSite && isHybridSite w userPolarities siteName then some .kLowVertexWeight
  else if siteName ∈ (getYStreetMacs w).image (siteNameOfMac w) then some .kHighVertexWeight
  else if isSite && isHybridSite w oldPolarities siteName then some .kBiasDownVertexWeight
  else none

/-- `PolarityHelper::optimizePolarity`; `getOccSolution` gives the sites that `OccSolver` picks. -/
def optimizePolarity
    (getOccSolution : TopologyWrapper → (String → Option VertexWeight) → Finset String)
    (order : SetOrder) (userPolarities oldPolarities : MacToPolarity) (errMsgs : List String)
    (rounds : Nat) : Except PolarityFailure PolaritySearch :=
  let occResult := getOccSolution w (siteWeights w userPolarities oldPolarities)
  let hybridMacs := occResult.biUnion (site2Macs w)
  allocatePolarities w order userPolarities oldPolarities hybridMacs rounds
    { visitStack := [], newPolarities := [], success := true, errMsgs }

end Optimize

open Filter Guarded List Option

/-! ### Links between WLAN MACs -/

/-- The wireless links with two MACs name WLAN MACs of the nodes at their ends. -/
def WlanLinks (w : TopologyWrapper) : Prop :=
  ∀ link ∈ w.topology.links, link.linkType = .WIRELESS → link.aNodeMac ≠ "" → link.zNodeMac ≠ "" →
    (wlanNode w link.aNodeMac).map Node.name = some link.aNodeName ∧
      (wlanNode w link.zNodeMac).map Node.name = some link.zNodeName

instance (w : TopologyWrapper) : Decidable (WlanLinks w) :=
  inferInstanceAs (Decidable (∀ link ∈ w.topology.links, _))

section Macs

variable {w : TopologyWrapper} {mac nbr : String}

theorem mem_wlanMacs_iff : mac ∈ wlanMacs w ↔ ∃ node, wlanNode w mac = some node := by
  rw [wlanMacs, wlanNode, ← isSome_iff_exists]
  simp

theorem mem_nbrMacs (member : nbr ∈ nbrMacs w mac) :
    ∃ link ∈ w.topology.links, link.linkType = .WIRELESS ∧ link.aNodeMac ≠ "" ∧
      link.zNodeMac ≠ "" ∧ (link.aNodeMac = mac ∧ link.zNodeMac = nbr ∨
        link.aNodeMac = nbr ∧ link.zNodeMac = mac) := by
  obtain ⟨link, isLink, other⟩ := mem_filterMap.mp member
  rw [otherMac] at other
  split at other
  · cases other
  · next usable =>
    simp only [not_or, not_and, not_not] at usable
    obtain ⟨wireless, aGiven, zGiven, named⟩ := usable
    refine ⟨link, (mem_filter.mp isLink).1, wireless, aGiven, zGiven, ?_⟩
    split at other
    · next isA => exact .inl ⟨isA, some.inj other⟩
    · next notA => exact .inr ⟨some.inj other, named notA⟩

theorem nbrMacs_of_link (linked : WlanLinks w) {link : Link} (isLink : link ∈ w.topology.links)
    (wireless : link.linkType = .WIRELESS) (aGiven : link.aNodeMac ≠ "")
    (zGiven : link.zNodeMac ≠ "") :
    link.zNodeMac ∈ nbrMacs w link.aNodeMac ∧ link.aNodeMac ∈ nbrMacs w link.zNodeMac := by
  obtain ⟨atA, atZ⟩ := linked link isLink wireless aGiven zGiven
  refine ⟨mem_filterMap.mpr ⟨link, ?_, ?_⟩, mem_filterMap.mpr ⟨link, ?_, ?_⟩⟩
  · simp [getLinksByNodeName, isLink, nodeNameOfMac, atA]
  · simp [otherMac, wireless, aGiven, zGiven]
  · simp [getLinksByNodeName, isLink, nodeNameOfMac, atZ]
  · by_cases same : link.aNodeMac = link.zNodeMac
    · simp [otherMac, wireless, zGiven, same]
    · simp [otherMac, wireless, aGiven, zGiven, same]

theorem nbrMacs_wlan (linked : WlanLinks w) (member : nbr ∈ nbrMacs w mac) : nbr ∈ wlanMacs w := by
  obtain ⟨link, isLink, wireless, aGiven, zGiven, ends⟩ := mem_nbrMacs member
  obtain ⟨atA, atZ⟩ := linked link isLink wireless aGiven zGiven
  rw [mem_wlanMacs_iff]
  rcases ends with ⟨_, isNbr⟩ | ⟨isNbr, _⟩
  · obtain ⟨node, found, _⟩ := map_eq_some_iff.mp atZ
    exact ⟨node, isNbr ▸ found⟩
  · obtain ⟨node, found, _⟩ := map_eq_some_iff.mp atA
    exact ⟨node, isNbr ▸ found⟩

theorem site2Macs_wlan {siteName : String} (member : mac ∈ site2Macs w siteName) :
    mac ∈ wlanMacs w := by
  rw [site2Macs, List.mem_toFinset, mem_flatMap] at member
  obtain ⟨node, isNode, isMac⟩ := member
  rw [wlanMacs, List.mem_toFinset, mem_flatMap]
  exact ⟨node, (mem_filter.mp isNode).1, isMac⟩

theorem getNode_nodeNameOfMac (sites : SiteInvariant w) (isWlan : mac ∈ wlanMacs w) :
    ∃ node, w.getNode (nodeNameOfMac w mac) = some node := by
  obtain ⟨node, found⟩ := mem_wlanMacs_iff.mp isWlan
  refine ⟨node, ?_⟩
  rw [nodeNameOfMac, found]
  exact sites.nodeIndex.find_eq_some_iff.mpr ⟨mem_reverse.mp (mem_of_find?_eq_some found), rfl⟩

end Macs

/-! ### Handing a polarity on -/

theorem unassigned_of_keeps {before after : Option PolarityType}
    (keeps : ∀ p, before = some p → after = some p) (unassigned : after = none) : before = none := by
  cases before with
  | none => rfl
  | some p => exact absurd (keeps p rfl) (by simp [unassigned])

/-- What the loop over the links of the current MAC has done. -/
structure Crossed (polarity : PolarityType) (nbrs : List String) (s s' : PolaritySearch) : Prop where
  keeps : ∀ mac p, find mac s.newPolarities = some p →
    find mac s'.newPolarities = some p
  reached : ∀ nbr ∈ nbrs, ∃ p, find nbr s'.newPolarities = some p ∧
    (s'.success = true → p = polarity.opposite)
  pushed : ∃ new, s'.visitStack = new ++ s.visitStack ∧
    (∀ mac ∈ new, mac ∈ nbrs ∧ find mac s.newPolarities = none) ∧
    ∀ mac, find mac s'.newPolarities ≠ none →
      find mac s.newPolarities ≠ none ∨ mac ∈ new
  success : s'.success = true → s.success = true
  conflict : s'.success = false → s.success = false ∨ ∃ nbr ∈ nbrs, ∃ p,
    find nbr s'.newPolarities = some p ∧ p ≠ polarity.opposite

variable {s : PolaritySearch}

theorem Crossed.trans {polarity : PolarityType} {first second : List String}
    {t u : PolaritySearch} (one : Crossed polarity first s t) (two : Crossed polarity second t u) :
    Crossed polarity (first ++ second) s u := by
  obtain ⟨newOne, stackOne, wereOne, onlyOne⟩ := one.pushed
  obtain ⟨newTwo, stackTwo, wereTwo, onlyTwo⟩ := two.pushed
  refine ⟨fun mac p found => two.keeps mac p (one.keeps mac p found), ?_, ?_,
    fun succeeded => one.success (two.success succeeded), ?_⟩
  · intro nbr member
    rcases mem_append.mp member with inFirst | inSecond
    · obtain ⟨p, found, agrees⟩ := one.reached nbr inFirst
      exact ⟨p, two.keeps nbr p found, fun succeeded => agrees (two.success succeeded)⟩
    · exact two.reached nbr inSecond
  · refine ⟨newTwo ++ newOne, by rw [stackTwo, stackOne, append_assoc], ?_, ?_⟩
    · intro mac isNew
      rcases mem_append.mp isNew with late | early
      · obtain ⟨inSecond, unassigned⟩ := wereTwo mac late
        exact ⟨mem_append_right _ inSecond, unassigned_of_keeps (one.keeps mac) unassigned⟩
      · exact ⟨mem_append_left _ (wereOne mac early).1, (wereOne mac early).2⟩
    · intro mac assigned
      rcases onlyTwo mac assigned with before | late
      · rcases onlyOne mac before with old | early
        · exact .inl old
        · exact .inr (mem_append_right _ early)
      · exact .inr (mem_append_left _ late)
  · intro failed
    rcases two.conflict failed with before | ⟨nbr, inSecond, p, found, differs⟩
    · rcases one.conflict before with old | ⟨nbr, inFirst, p, found, differs⟩
      · exact .inl old
      · exact .inr ⟨nbr, mem_append_left _ inFirst, p, two.keeps nbr p found, differs⟩
    · exact .inr ⟨nbr, mem_append_right _ inSecond, p, found, differs⟩

variable (polarity : PolarityType)

theorem crossed_crossLink (s : PolaritySearch) (nbr : String) :
    Crossed polarity [nbr] s (crossLink polarity s nbr) := by
  rw [crossLink]
  cases found : find nbr s.newPolarities with
  | some existing =>
    simp only
    split
    · next differs =>
      refine ⟨fun _ _ isFound => isFound, ?_, ⟨[], by simp⟩, by simp, ?_⟩
      · intro _ member
        rw [mem_singleton.mp member]
        exact ⟨existing, found, by simp⟩
      · exact fun _ => .inr ⟨nbr, by simp, existing, found, Ne.symm differs⟩
    · next agrees =>
      refine ⟨fun _ _ isFound => isFound, ?_, ⟨[], by simp⟩, id, .inl⟩
      intro _ member
      rw [mem_singleton.mp member]
      exact ⟨existing, found, fun _ => (not_not.mp agrees).symm⟩
  | none =>
    have entered : ∀ mac, find mac (s.newPolarities ++ [(nbr, polarity.opposite)]) =
        (find mac s.newPolarities).or (if nbr = mac then some polarity.opposite else none) := by
      intro mac
      rw [find_append]
      rfl
    refine ⟨?_, ?_, ⟨[nbr], rfl, ?_, ?_⟩, id, .inl⟩
    · intro _ p isFound
      simp [entered, isFound]
    · intro _ member
      rw [mem_singleton.mp member]
      exact ⟨polarity.opposite, by simp [entered, found], fun _ => rfl⟩
    · intro _ member
      rw [mem_singleton.mp member]
      exact ⟨by simp, found⟩
    · intro mac assigned
      by_cases same : nbr = mac
      · exact .inr (by simp [same])
      · exact .inl (by simpa [entered, same] using assigned)

theorem crossed_foldl (nbrs : List String) (s : PolaritySearch) :
    Crossed polarity nbrs s (nbrs.foldl (crossLink polarity) s) := by
  induction nbrs generalizing s with
  | nil => exact ⟨fun _ _ found => found, by simp, ⟨[], by simp⟩, id, .inl⟩
  | cons nbr _ ih =>
    exact (crossed_crossLink polarity s nbr).trans (ih _)

/-! ### The search -/

/-- MACs with a polarity that are not on the stack have handed it on, and without success two ends
of a link disagree. -/
structure Searched (w : TopologyWrapper) (s : PolaritySearch) : Prop where
  stack : ∀ mac ∈ s.visitStack, mac ∈ wlanMacs w
  assigned : ∀ mac, find mac s.newPolarities ≠ none → mac ∈ wlanMacs w
  settled : ∀ mac p, find mac s.newPolarities = some p → mac ∉ s.visitStack →
    ∀ nbr ∈ nbrMacs w mac, ∃ q, find nbr s.newPolarities = some q ∧
      (s.success = true → q = p.opposite)
  conflict : s.success = false → ∃ mac nbr p q, nbr ∈ nbrMacs w mac ∧
    find mac s.newPolarities = some p ∧ find nbr s.newPolarities = some q ∧
    q ≠ p.opposite

/-- The WLAN MACs without a polarity, and the stack entries with one; the pair decreases. -/
def searchRank (w : TopologyWrapper) (s : PolaritySearch) : ℕ ×ₗ ℕ :=
  toLex (((wlanMacs w).filter fun mac => find mac s.newPolarities = none).card,
    s.visitStack.countP fun mac => find mac s.newPolarities ≠ none)

variable {p : PolarityType}

section Search

variable {w : TopologyWrapper} {order : SetOrder} {userPolarities oldPolarities : MacToPolarity}
  {hybridMacs : Finset String} {followSameSite : Bool}

theorem find_withCurrent (mac curr : String) (newPolarities : MacToPolarity) :
    find mac (withCurrent w userPolarities oldPolarities hybridMacs curr newPolarities) =
      (find mac newPolarities).or (if curr = mac then
          some (currentPolarity w userPolarities oldPolarities hybridMacs curr newPolarities)
        else none) := by
  rw [withCurrent]
  cases found : find curr newPolarities with
  | none =>
    rw [if_pos rfl, find_append]
    rfl
  | some =>
    simp only [reduceCtorEq, if_false]
    by_cases same : curr = mac
    · rw [← same, found]
      rfl
    · simp [same]

theorem find_withCurrent_self (curr : String) (newPolarities : MacToPolarity) :
    find curr (withCurrent w userPolarities oldPolarities hybridMacs curr newPolarities) =
      some (currentPolarity w userPolarities oldPolarities hybridMacs curr newPolarities) := by
  rw [find_withCurrent]
  cases found : find curr newPolarities with
  | none => simp
  | some => simp [currentPolarity, found]

theorem sameSiteMacs_ok (sites : SiteInvariant w) {curr : String} (isWlan : curr ∈ wlanMacs w)
    (newPolarities : MacToPolarity) :
    ∃ siteMacs, sameSiteMacs w order hybridMacs followSameSite curr newPolarities = .ok siteMacs ∧
      ∀ mac ∈ siteMacs, mac ∈ wlanMacs w ∧ find mac newPolarities = none := by
  rw [sameSiteMacs]
  split
  · obtain ⟨_, found⟩ := getNode_nodeNameOfMac sites isWlan
    rw [found]
    refine ⟨_, rfl, fun _ member => ?_⟩
    obtain ⟨isSite, unassigned⟩ := mem_filter.mp member
    exact ⟨site2Macs_wlan ((order.mem_toList _ _).mp isSite), by simpa using unassigned⟩
  · exact ⟨[], rfl, by simp⟩

/-- The state in which the links of the current MAC are crossed. -/
structure Entered (w : TopologyWrapper) (curr : String) (rest : List String)
    (polarity : PolarityType) (s t : PolaritySearch) : Prop where
  current : find curr t.newPolarities = some polarity
  keeps : ∀ mac p, find mac s.newPolarities = some p →
    find mac t.newPolarities = some p
  only : ∀ mac, find mac t.newPolarities ≠ none →
    find mac s.newPolarities ≠ none ∨ mac = curr
  pushed : ∃ siteMacs, t.visitStack = rest ++ siteMacs ∧
    ∀ mac ∈ siteMacs, mac ∈ wlanMacs w ∧ find mac t.newPolarities = none
  success : t.success = s.success

/-- A round of the loop enters the current MAC and crosses its links. -/
theorem visit_ok (sites : SiteInvariant w) {curr : String}
    {rest : List String} (top : s.visitStack = curr :: rest) (isWlan : curr ∈ wlanMacs w) :
    ∃ polarity t s', visit w order userPolarities oldPolarities hybridMacs followSameSite s =
      .ok s' ∧ Entered w curr rest polarity s t ∧ Crossed polarity (nbrMacs w curr) t s' := by
  obtain ⟨siteMacs, found, areSite⟩ : ∃ siteMacs, sameSiteMacs w order hybridMacs followSameSite curr
      (withCurrent w userPolarities oldPolarities hybridMacs curr s.newPolarities) = .ok siteMacs ∧
      _ := sameSiteMacs_ok sites isWlan _
  refine ⟨currentPolarity w userPolarities oldPolarities hybridMacs curr s.newPolarities, { s with
      visitStack := rest ++ siteMacs
      newPolarities := withCurrent w userPolarities oldPolarities hybridMacs curr s.newPolarities },
    _, ?_, ⟨find_withCurrent_self .., ?_, ?_, ⟨siteMacs, rfl, areSite⟩, rfl⟩, crossed_foldl ..⟩
  · rw [visit, top]
    simp only [found]
    rfl
  · intro _ p isFound
    rw [find_withCurrent, isFound]
    rfl
  · intro mac isAssigned
    rw [find_withCurrent] at isAssigned
    by_cases same : curr = mac
    · exact .inr same.symm
    · exact .inl (by simpa [same] using isAssigned)

variable {mac : String}

section Round

variable {t s' : PolaritySearch} {curr : String} {rest : List String} {polarity}
  (linked : WlanLinks w) (searched : Searched w s) (top : s.visitStack = curr :: rest)
  (entered : Entered w curr rest polarity s t) (crossed : Crossed polarity (nbrMacs w curr) t s')

include entered crossed

theorem keeps_round (found : find mac s.newPolarities = some p) :
    find mac s'.newPolarities = some p :=
  crossed.keeps mac p (entered.keeps mac p found)

include searched

theorem conflict_round (failed : s'.success = false) :
    ∃ mac nbr p q, nbr ∈ nbrMacs w mac ∧ find mac s'.newPolarities = some p ∧
      find nbr s'.newPolarities = some q ∧ q ≠ p.opposite := by
  rcases crossed.conflict failed with before | ⟨nbr, member, q, found, differs⟩
  · rw [entered.success] at before
    obtain ⟨mac, nbr, p, q, member, isMac, isNbr, differs⟩ := searched.conflict before
    exact ⟨mac, nbr, p, q, member, keeps_round entered crossed isMac,
      keeps_round entered crossed isNbr, differs⟩
  · exact ⟨curr, nbr, polarity, q, member, crossed.keeps curr polarity entered.current, found,
      differs⟩

include top

theorem settled_round (found : find mac s'.newPolarities = some p) (off : mac ∉ s'.visitStack) :
    ∀ nbr ∈ nbrMacs w mac, ∃ q, find nbr s'.newPolarities = some q ∧
      (s'.success = true → q = p.opposite) := by
  obtain ⟨_, stack, _, onlyNew⟩ := crossed.pushed
  obtain ⟨_, before, _⟩ := entered.pushed
  rw [stack, before] at off
  simp only [mem_append, not_or] at off
  by_cases isCurrent : mac = curr
  · rw [isCurrent, crossed.keeps curr polarity entered.current] at found
    cases found
    rw [isCurrent]
    exact crossed.reached
  · -- an older MAC, which was off the stack before the round
    have inT := (onlyNew mac (by simp [found])).resolve_right off.1
    have inS := (entered.only mac inT).resolve_right isCurrent
    obtain ⟨_, isOld⟩ := ne_none_iff_exists'.mp inS
    cases (keeps_round entered crossed isOld).symm.trans found
    have offBefore : mac ∉ s.visitStack := by
      rw [top]
      simp [isCurrent, off.2.1]
    intro nbr member
    obtain ⟨q, isNbr, agrees⟩ := searched.settled mac p isOld offBefore nbr member
    refine ⟨q, keeps_round entered crossed isNbr, fun succeeded => agrees ?_⟩
    rw [← entered.success]
    exact crossed.success succeeded

include linked

theorem searched_round : Searched w s' := by
  obtain ⟨_, stack, areNew, onlyNew⟩ := crossed.pushed
  obtain ⟨_, before, areSite⟩ := entered.pushed
  have isWlan : ∀ mac ∈ curr :: rest, mac ∈ wlanMacs w := top ▸ searched.stack
  refine ⟨?_, ?_, fun _ p found off => settled_round searched top entered crossed found off,
    conflict_round searched entered crossed⟩
  · intro mac member
    rw [stack, before] at member
    simp only [mem_append] at member
    rcases member with isNew | isRest | isSite
    · exact nbrMacs_wlan linked (areNew mac isNew).1
    · exact isWlan mac (mem_cons_of_mem _ isRest)
    · exact (areSite mac isSite).1
  · intro mac isAssigned
    rcases onlyNew mac isAssigned with inT | isNew
    · rcases entered.only mac inT with inS | rfl
      · exact searched.assigned mac inS
      · exact isWlan mac (by simp)
    · exact nbrMacs_wlan linked (areNew mac isNew).1

theorem searchRank_round : searchRank w s' < searchRank w s := by
  obtain ⟨new, stack, areNew, _⟩ := crossed.pushed
  obtain ⟨siteMacs, before, areSite⟩ := entered.pushed
  have isWlan : ∀ mac ∈ curr :: rest, mac ∈ wlanMacs w := top ▸ searched.stack
  have stays : ∀ mac, find mac s'.newPolarities = none → find mac s.newPolarities = none :=
    fun mac => unassigned_of_keeps fun p => keeps_round entered crossed
  have wasUnassigned : ∀ mac, find mac t.newPolarities = none → find mac s.newPolarities = none :=
    fun mac => unassigned_of_keeps (entered.keeps mac)
  have current : find curr s'.newPolarities ≠ none := by
    rw [crossed.keeps curr polarity entered.current]
    simp
  rw [searchRank, searchRank, Prod.Lex.toLex_lt_toLex]
  dsimp only
  by_cases grown : ∃ mac ∈ wlanMacs w, find mac s.newPolarities = none ∧
      find mac s'.newPolarities ≠ none
  · obtain ⟨mac, isMac, unassigned, assigned⟩ := grown
    left
    apply Finset.card_lt_card
    refine (Finset.ssubset_iff_of_subset ?_).mpr
      ⟨mac, by simp [isMac, unassigned], by simp [assigned]⟩
    exact Finset.monotone_filter_right _ fun other _ => stays other
  · have same : ∀ mac ∈ wlanMacs w, (find mac s'.newPolarities = none ↔
        find mac s.newPolarities = none) := by
      intro mac isMac
      refine ⟨stays mac, fun unassigned => ?_⟩
      by_contra assigned
      exact grown ⟨mac, isMac, unassigned, assigned⟩
    have nothingNew : new = [] := by
      refine eq_nil_iff_forall_not_mem.mpr fun mac isNew => ?_
      obtain ⟨isNbr, unassigned⟩ := areNew mac isNew
      obtain ⟨p, found, _⟩ := crossed.reached mac isNbr
      rw [(same mac (nbrMacs_wlan linked isNbr)).mpr (wasUnassigned mac unassigned)] at found
      cases found
    right
    refine ⟨congrArg Finset.card (Finset.filter_congr same), ?_⟩
    have restCount : rest.countP (fun mac => find mac s'.newPolarities ≠ none) =
        rest.countP fun mac => find mac s.newPolarities ≠ none := by
      refine countP_congr fun mac isRest => ?_
      simp [same mac (isWlan mac (mem_cons_of_mem _ isRest))]
    have siteCount : siteMacs.countP (fun mac => find mac s'.newPolarities ≠ none) = 0 := by
      refine countP_eq_zero.mpr fun mac isSite => ?_
      obtain ⟨isMac, unassigned⟩ := areSite mac isSite
      simp [(same mac isMac).mpr (wasUnassigned mac unassigned)]
    have wasAssigned : find curr s.newPolarities ≠ none :=
      fun unassigned => grown ⟨curr, isWlan curr (by simp), unassigned, current⟩
    simp only [stack, before, top, nothingNew, countP_append, restCount, siteCount]
    simp [wasAssigned]

end Round

/-- What holds at any time of the search from one MAC that started in `s`. -/
structure Following (w : TopologyWrapper) (mac : String) (s t : PolaritySearch) : Prop where
  searched : Searched w t
  waiting : find mac t.newPolarities ≠ none ∨ mac ∈ t.visitStack
  keeps : ∀ other p, find other s.newPolarities = some p →
    find other t.newPolarities = some p

theorem Following.round (sites : SiteInvariant w) (linked : WlanLinks w)
    {t : PolaritySearch} (following : Following w mac s t) (unfinished : ¬ t.visitStack = []) :
    ∃ t', visit w order userPolarities oldPolarities hybridMacs followSameSite t = .ok t' ∧
      Following w mac s t' ∧ searchRank w t' < searchRank w t := by
  obtain ⟨searched, waiting, keeps⟩ := following
  obtain ⟨curr, _, top⟩ := exists_cons_of_ne_nil unfinished
  obtain ⟨polarity, u, t', visited, entered, crossed⟩ :=
    visit_ok sites top (searched.stack curr (by simp [top]))
  refine ⟨t', visited, ⟨searched_round linked searched top entered crossed, ?_, ?_⟩,
    searchRank_round linked searched top entered crossed⟩
  · rcases waiting with assigned | onStack
    · obtain ⟨p, found⟩ := ne_none_iff_exists'.mp assigned
      exact .inl (by simp [keeps_round entered crossed found])
    · rw [top, mem_cons] at onStack
      rcases onStack with isCurrent | isRest
      · exact .inl (by simp [isCurrent, crossed.keeps curr polarity entered.current])
      · obtain ⟨_, stack, _⟩ := crossed.pushed
        obtain ⟨_, before, _⟩ := entered.pushed
        exact .inr (by simp [stack, before, isRest])
  · intro other p found
    exact keeps_round entered crossed (keeps other p found)

/-- The search from one MAC returns; it keeps the polarities there are and gives one to the MAC. -/
theorem assignPolarityAndFollow_returns (sites : SiteInvariant w) (linked : WlanLinks w)
    (searched : Searched w s) (idle : s.visitStack = []) (isWlan : mac ∈ wlanMacs w) :
    ∃ s', Following w mac s s' ∧ s'.visitStack = [] ∧
      ∀ᶠ rounds in atTop, assignPolarityAndFollow w order userPolarities oldPolarities hybridMacs
        followSameSite rounds s mac = .ok s' := by
  have started : Following w mac s { s with visitStack := [mac] } := by
    refine ⟨⟨?_, searched.assigned, ?_, searched.conflict⟩, .inr (by simp), fun _ _ found => found⟩
    · intro _ member
      rw [mem_singleton.mp member]
      exact isWlan
    · intro other p found _
      exact searched.settled other p found (by simp [idle])
  exact Rounds.loop_returns (searchRank w) (Following w mac s)
    (fun t following unfinished => following.round sites linked unfinished) started

end Search

/-! ### The whole assignment -/

section Allocate

variable {w : TopologyWrapper} {order : SetOrder} {userPolarities oldPolarities : MacToPolarity}
  {hybridMacs : Finset String}

/-- What holds between two searches: nothing waits, and the polarities of `s` have been kept. -/
structure Idle (w : TopologyWrapper) (s t : PolaritySearch) : Prop where
  searched : Searched w t
  idle : t.visitStack = []
  keeps : ∀ other p, find other s.newPolarities = some p →
    find other t.newPolarities = some p

theorem Idle.refl (searched : Searched w s) (idle : s.visitStack = []) : Idle w s s :=
  ⟨searched, idle, fun _ _ found => found⟩

theorem followIf_returns (sites : SiteInvariant w) (linked : WlanLinks w)
    {condition : PolaritySearch → String → Bool} (followSameSite : Bool) {macs : List String}
    (areWlan : ∀ mac ∈ macs, mac ∈ wlanMacs w) (selected : String → Prop)
    (skips : ∀ t mac, selected mac → condition t mac = false →
      find mac t.newPolarities ≠ none) (searched : Searched w s)
    (idle : s.visitStack = []) :
    ∃ s', (Idle w s s' ∧ ∀ mac ∈ macs, selected mac → find mac s'.newPolarities ≠ none) ∧
      ∀ᶠ rounds in atTop, macs.foldlM (followIf w order userPolarities oldPolarities hybridMacs
        condition followSameSite rounds) s = .ok s' := by
  refine Rounds.foldlM_returns (fun done t => Idle w s t ∧
    ∀ mac ∈ done, selected mac → find mac t.newPolarities ≠ none)
    ⟨.refl searched idle, by simp⟩ ?_
  rintro _ mac _ split t ⟨isIdle, assigned⟩
  cases isMet : condition t mac with
  | false =>
    refine ⟨t, ⟨isIdle, ?_⟩, .of_forall fun _ => by simp [followIf, isMet]⟩
    intro other isDone isSelected
    rcases mem_append.mp isDone with before | now
    · exact assigned other before isSelected
    · rw [mem_singleton.mp now] at isSelected ⊢
      exact skips t mac isSelected isMet
  | true =>
    obtain ⟨t', following, idle', returns⟩ : ∃ t', Following w mac t t' ∧ t'.visitStack = [] ∧
        ∀ᶠ rounds in atTop, assignPolarityAndFollow w order userPolarities oldPolarities hybridMacs
          followSameSite rounds t mac = .ok t' :=
      assignPolarityAndFollow_returns sites linked isIdle.searched isIdle.idle
        (areWlan mac (by simp [split]))
    have visited := following.waiting.resolve_right (by simp [idle'])
    refine ⟨t', ⟨⟨following.searched, idle', fun other p found =>
      following.keeps other p (isIdle.keeps other p found)⟩, ?_⟩,
      returns.mono fun _ returned => by rw [followIf, if_pos isMet, returned]⟩
    intro other isDone isSelected
    rcases mem_append.mp isDone with before | now
    · obtain ⟨p, found⟩ := ne_none_iff_exists'.mp (assigned other before isSelected)
      simp [following.keeps other p found]
    · rw [mem_singleton.mp now]
      exact visited

theorem allocatePolarities_returns (sites : SiteInvariant w) (linked : WlanLinks w)
    (users : ∀ mac ∈ userPolarities.macs, mac ∈ wlanMacs w)
    (hybrids : ∀ mac ∈ hybridMacs, mac ∈ wlanMacs w) (searched : Searched w s)
    (idle : s.visitStack = []) :
    ∃ s', Searched w s' ∧ s'.visitStack = [] ∧
      (∀ mac ∈ wlanMacs w, find mac s'.newPolarities ≠ none) ∧
      ∀ᶠ rounds in atTop, allocatePolarities w order userPolarities oldPolarities hybridMacs rounds
        s = .ok s' := by
  obtain ⟨s₁, ⟨idle₁, _⟩, first⟩ : ∃ s₁, (Idle w s s₁ ∧ _) ∧ ∀ᶠ rounds in atTop,
      (order.toList userPolarities.macs).foldlM (followIf w order userPolarities oldPolarities
        hybridMacs (fun _ _ => true) false rounds) s = .ok s₁ :=
    followIf_returns sites linked false (fun mac member => users mac ((order.mem_toList _ _).mp member))
      (fun _ => True) (by simp) searched idle
  obtain ⟨s₂, ⟨idle₂, _⟩, second⟩ : ∃ s₂, (Idle w s₁ s₂ ∧ _) ∧ ∀ᶠ rounds in atTop,
      (order.toList s₁.newPolarities.macs).foldlM (followIf w order userPolarities oldPolarities
        hybridMacs (fun _ mac => mac ∉ hybridMacs) true rounds) s₁ = .ok s₂ := by
    refine followIf_returns sites linked true ?_ (fun _ => False) (by simp) idle₁.searched idle₁.idle
    intro mac member
    apply idle₁.searched.assigned mac
    rw [find_ne_none_iff]
    exact List.mem_toFinset.mp ((order.mem_toList _ _).mp member)
  obtain ⟨s₃, ⟨idle₃, notHybrid⟩, third⟩ : ∃ s₃, (Idle w s₂ s₃ ∧ _) ∧ ∀ᶠ rounds in atTop,
      (Ascending.listing (wlanMacs w)).foldlM (followIf w order userPolarities oldPolarities
        hybridMacs (fun s mac => find mac s.newPolarities = none ∧ mac ∉ hybridMacs) true
        rounds) s₂ = .ok s₃ :=
    followIf_returns sites linked true (fun _ => Ascending.mem_listing.mp) (· ∉ hybridMacs)
      (fun t _ outside skipped => by simpa [outside] using skipped) idle₂.searched idle₂.idle
  obtain ⟨s₄, ⟨idle₄, hybrid⟩, fourth⟩ : ∃ s₄, (Idle w s₃ s₄ ∧ _) ∧ ∀ᶠ rounds in atTop,
      (order.toList hybridMacs).foldlM (followIf w order userPolarities oldPolarities hybridMacs
        (fun s mac => find mac s.newPolarities = none) false rounds) s₃ = .ok s₄ :=
    followIf_returns sites linked false
      (fun mac member => hybrids mac ((order.mem_toList _ _).mp member)) (fun _ => True)
      (fun t _ _ skipped => by simpa using skipped) idle₃.searched idle₃.idle
  refine ⟨s₄, idle₄.searched, idle₄.idle, ?_, ?_⟩
  · intro mac isWlan
    by_cases isHybrid : mac ∈ hybridMacs
    · exact hybrid mac ((order.mem_toList _ _).mpr isHybrid) trivial
    · obtain ⟨p, found⟩ := ne_none_iff_exists'.mp
        (notHybrid mac (Ascending.mem_listing.mpr isWlan) isHybrid)
      simp [idle₄.keeps mac p found]
  · filter_upwards [first, second, third, fourth] with rounds one two three four
    exact except_bind_eq_ok.mpr ⟨s₁, one, except_bind_eq_ok.mpr ⟨s₂, two,
      except_bind_eq_ok.mpr ⟨s₃, three, four⟩⟩⟩

end Allocate

/-! ### The result -/

def OddEven (aPolarity zPolarity : Option PolarityType) : Prop :=
  aPolarity = some .ODD ∧ zPolarity = some .EVEN ∨ aPolarity = some .EVEN ∧ zPolarity = some .ODD

theorem oddEven_of_opposite {q : PolarityType} (pq : q = p.opposite) (qp : p = q.opposite) :
    OddEven (some p) (some q) := by
  rw [PolarityType.opposite] at pq qp
  split at pq
  · rw [pq] at qp ⊢
    exact .inl ⟨congrArg some qp, rfl⟩
  · rw [pq] at qp ⊢
    exact .inr ⟨congrArg some qp, rfl⟩

theorem OddEven.opposite {q : PolarityType} (oddEven : OddEven (some p) (some q)) :
    q = p.opposite ∧ p = q.opposite := by
  rcases oddEven with ⟨isOdd, isEven⟩ | ⟨isEven, isOdd⟩
  · cases isOdd
    cases isEven
    exact ⟨rfl, rfl⟩
  · cases isOdd
    cases isEven
    exact ⟨rfl, rfl⟩

/-- After the search, success says that the ends of all wireless links are ODD and EVEN. -/
theorem Searched.success_iff {w : TopologyWrapper} (searched : Searched w s)
    (idle : s.visitStack = []) (linked : WlanLinks w)
    (all : ∀ mac ∈ wlanMacs w, find mac s.newPolarities ≠ none) :
    s.success = true ↔ ∀ link ∈ w.topology.links, link.linkType = .WIRELESS →
      link.aNodeMac ≠ "" → link.zNodeMac ≠ "" →
      OddEven (find link.aNodeMac s.newPolarities) (find link.zNodeMac s.newPolarities) := by
  constructor
  · intro succeeded _ isLink wireless aGiven zGiven
    obtain ⟨toZ, toA⟩ := nbrMacs_of_link linked isLink wireless aGiven zGiven
    obtain ⟨p, isA⟩ := ne_none_iff_exists'.mp (all _ (nbrMacs_wlan linked toA))
    obtain ⟨q, isZ⟩ := ne_none_iff_exists'.mp (all _ (nbrMacs_wlan linked toZ))
    obtain ⟨_, isZ', agreesZ⟩ := searched.settled _ p isA (by simp [idle]) _ toZ
    obtain ⟨_, isA', agreesA⟩ := searched.settled _ q isZ (by simp [idle]) _ toA
    cases isZ.symm.trans isZ'
    cases isA.symm.trans isA'
    rw [isA, isZ]
    exact oddEven_of_opposite (agreesZ succeeded) (agreesA succeeded)
  · intro oddEven
    by_contra failed
    obtain ⟨_, _, p, q, member, isMac, isNbr, differs⟩ :=
      searched.conflict (by simpa using failed)
    obtain ⟨link, isLink, wireless, aGiven, zGiven, ends⟩ := mem_nbrMacs member
    have agrees := oddEven link isLink wireless aGiven zGiven
    rcases ends with ⟨isA, isZ⟩ | ⟨isA, isZ⟩
    · rw [isA, isZ, isMac, isNbr] at agrees
      exact differs agrees.opposite.1
    · rw [isA, isZ, isMac, isNbr] at agrees
      exact differs agrees.opposite.2

theorem optimizePolarity_stable (w : TopologyWrapper)
    (getOccSolution : TopologyWrapper → (String → Option VertexWeight) → Finset String)
    (order : SetOrder) (userPolarities oldPolarities : MacToPolarity) (errMsgs : List String) :
    Rounds.Stable (optimizePolarity w getOccSolution order userPolarities oldPolarities
      errMsgs) := by
  have follow : ∀ hybridMacs condition followSameSite s macAddr, Rounds.Stable fun rounds =>
      followIf w order userPolarities oldPolarities hybridMacs condition followSameSite rounds s
        macAddr := by
    intro _ _ _ s _
    unfold followIf
    split
    · exact .loop _ _ _
    · exact .const _
  apply Rounds.Stable.bind (.foldlM (follow _ _ _) _ _)
  intro s₁
  apply Rounds.Stable.bind (.foldlM (follow _ _ _) _ _)
  intro s₂
  apply Rounds.Stable.bind (.foldlM (follow _ _ _) _ _)
  intro s₃
  exact .foldlM (follow _ _ _) _ _

/-- Two nodes on two sites with a wireless link between their WLAN MACs. -/
def radioPair : Topology :=
  { sites := [{ name := "S" }, { name := "T" }]
    nodes := [{ name := "a", siteName := "S", wlanMacAddrs := ["02:00:00:00:00:01"] },
      { name := "b", siteName := "T", wlanMacAddrs := ["02:00:00:00:00:02"] }]
    links := [{ name := "link-a-b", aNodeName := "a", zNodeName := "b", linkType := .WIRELESS,
                aNodeMac := "02:00:00:00:00:01", zNodeMac := "02:00:00:00:00:02" }] }

def effectivePolarity (userPolarities newPolarities : MacToPolarity) (macAddr : String) :
    Option PolarityType :=
  (find macAddr userPolarities).or (find macAddr newPolarities)

end Terragraph
