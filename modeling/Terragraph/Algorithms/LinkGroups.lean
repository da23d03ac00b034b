/-
Module: Terragraph.Algorithms.LinkGroups
Purpose: How `ConfigHelper` reads and writes the channels and golay indices of links, and
  `LinkGroupHelper::getLinkGroups`, which groups the wireless links of a topology.
Trusted boundary: human-reviewed embedding of `ConfigHelper.cpp`, `LinkGroupHelper.cpp` and of
  `TopologyWrapper::getSameRadioLinks`
Main exports: getRadioChannel, golayWrites, linkGroups_partition
-/
import Terragraph.Algorithms.PolarityOptimization
import Terragraph.Config.ParamLayers
import Terragraph.Topology.Links

namespace Terragraph

open Guarded TopologyWrapper AssocList

def isRadioLink (link : Link) : Bool :=
  link.linkType = .WIRELESS && link.aNodeMac ≠ "" && link.zNodeMac ≠ ""

/-! ### Channels -/

section Channel

/-- `kMinChannel`. -/
def kMinChannel : Int := 1

/-- `kMaxChannel`. -/
def kMaxChannel : Int := 4

/-- `kDefaultChannel`. -/
def kDefaultChannel : Int := 2

/-- A conversion to `int8_t`. -/
def toInt8 (number : Int) : Int := number.bmod (2 ^ 8)

/-- `ChannelHelper::isValidChannel`. -/
def isValidChannel (channel : Int) : Bool := kMinChannel ≤ channel && channel ≤ kMaxChannel

/-- `ChannelHelper::isValidLinkChannel`. -/
def isValidLinkChannel : Option Int → Option Int → Bool
  | some aChannel, some zChannel => aChannel = zChannel
  | _, _ => false

/-- `ConfigHelper::getEnabledChannels`, in ascending order. -/
def getEnabledChannels (tryToInt : String → Option Int) (enabledChannels : String) : List Int :=
  let splitChannels := ((enabledChannels.splitOn ",").filterMap tryToInt).map toInt8
  let enabled := [1, 2, 3, 4].filter fun channel =>
    isValidChannel channel && splitChannels.contains channel
  if enabledChannels = "" ∨ enabled = [] then [kDefaultChannel] else enabled

variable (read : ParamReader)

/-- `ConfigHelper::getRadioChannel`. -/
def getRadioChannel (nodeName macAddr : String) : Except LinkConfigError (Option Int) := do
  let baseChannel ← read nodeName .radioBase
  let overrideChannel ← read nodeName (.radio macAddr)
  return ((overrideChannel.or baseChannel).map toInt8).filter isValidChannel

/-- `ConfigHelper::getLinkChannel`. -/
def getLinkChannel (link : Link) : Except LinkConfigError (Option Int) :=
  if link.aNodeMac ≠ "" ∧ link.zNodeMac ≠ "" then do
    let aRadioChannel ← getRadioChannel read link.aNodeName link.aNodeMac
    let zRadioChannel ← getRadioChannel read link.zNodeName link.zNodeMac
    return if aRadioChannel = zRadioChannel then aRadioChannel else none
  else .ok none

end Channel

/-! ### Golay indices -/

/-- `struct GolayIdx`. -/
structure GolayIdx where
  txGolayIdx : Int := 0
  rxGolayIdx : Int := 0
deriving DecidableEq, Repr

section Golay

/-- `kNumGolays`: the golay indices from 1 on. -/
def golayColors : List Int := [1, 2]

/-- `GolayHelper::isValidLinkGolay`. -/
def isValidLinkGolay : Option GolayIdx → Option GolayIdx → Bool
  | some aGolayIdx, some zGolayIdx =>
    aGolayIdx = zGolayIdx && aGolayIdx.txGolayIdx = aGolayIdx.rxGolayIdx
  | _, _ => false

def golayPair : Option Int → Option Int → Option GolayIdx
  | some txGolayIdx, some rxGolayIdx => some { txGolayIdx, rxGolayIdx }
  | _, _ => none

variable (readTx readRx : ParamReader)

/-- `ConfigHelper::getGolayIdx`. -/
def getGolayIdx (nodeName responderMac : String) : Except LinkConfigError GolayIdx := do
  let baseRxGolayIdx ← readRx nodeName .linkBase
  let baseTxGolayIdx ← readTx nodeName .linkBase
  let overrideRxGolay ← readRx nodeName (.link responderMac)
  let overrideTxGolay ← readTx nodeName (.link responderMac)
  return ((golayPair overrideTxGolay overrideRxGolay).or
    (golayPair baseTxGolayIdx baseRxGolayIdx)).getD {}

def nonzeroGolay (golayIdx : GolayIdx) : Option GolayIdx :=
  if golayIdx ≠ {} then some golayIdx else none

/-- `ConfigHelper::getLinkGolayIdx`, of a node. -/
def getLinkGolayIdx (nodeName responderMac : String) :
    Except LinkConfigError (Option GolayIdx) := do
  return nonzeroGolay (← getGolayIdx readTx readRx nodeName responderMac)

end Golay

/-! ### Setters -/

section Setters

variable (macUtils : MacUtils)

/-- What `ConfigHelper::setLinkChannelForRadio` writes. -/
def channelWrite (channel : Option Int) (nodeName radioMac : String) : ParamWrite where
  nodeName := nodeName
  params := .radio (getStandardizedMac macUtils radioMac)
  values := [(.channel, channel)]
  distinct := by simp [keys]

/-- What `ConfigHelper::setLinkGolayForNode` writes. -/
def golayWrite (golayIdx : Option GolayIdx) (nodeName responderMac : String) : ParamWrite where
  nodeName := nodeName
  params := .link (getStandardizedMac macUtils responderMac)
  values := [(.txGolayIdx, golayIdx.map GolayIdx.txGolayIdx),
    (.rxGolayIdx, golayIdx.map GolayIdx.rxGolayIdx)]
  distinct := by simp [keys]

/-- What `ConfigHelper::setLinkChannel` writes. -/
def channelWrites (link : Link) (channel : Option Int) : List ParamWrite :=
  (if link.zNodeMac ≠ "" then [channelWrite macUtils channel link.aNodeName link.aNodeMac]
    else []) ++
    if link.aNodeMac ≠ "" then [channelWrite macUtils channel link.zNodeName link.zNodeMac] else []

/-- What `ConfigHelper::setLinkGolay` writes. -/
def golayWrites (link : Link) (golayIdx : Option GolayIdx) : List ParamWrite :=
  (if link.zNodeMac ≠ "" then [golayWrite macUtils golayIdx link.aNodeName link.zNodeMac]
    else []) ++
    if link.aNodeMac ≠ "" then [golayWrite macUtils golayIdx link.zNodeName link.aNodeMac] else []

end Setters

/-! ### Reading numbers -/

abbrev ParamView := String → FwParams → Option Int

def ParamView.reader (view : ParamView) : ParamReader := fun nodeName params =>
  .ok (view nodeName params)

variable {helper : ConfigHelper}

theorem ConfigHelper.Typed.param_all_reader (typed : helper.Typed)
    (key : FwKey) : helper.param false key = ParamView.reader (helper.layers.all key) := by
  funext nodeName params
  exact typed.param_all key nodeName params

theorem ConfigHelper.Typed.param_user_reader (typed : helper.Typed)
    (key : FwKey) : helper.param true key = ParamView.reader (helper.layers.user key) := by
  funext nodeName params
  exact typed.param_user key nodeName params

def golayShown (tx rx : ParamView) (nodeName responderMac : String) : Option GolayIdx :=
  nonzeroGolay (((golayPair (tx nodeName (.link responderMac)) (rx nodeName (.link responderMac))).or
    (golayPair (tx nodeName .linkBase) (rx nodeName .linkBase))).getD {})

theorem getLinkGolayIdx_reader (tx rx : ParamView) (nodeName responderMac : String) :
    getLinkGolayIdx tx.reader rx.reader nodeName responderMac =
      .ok (golayShown tx rx nodeName responderMac) := rfl

def channelShown (view : ParamView) (nodeName macAddr : String) : Option Int :=
  (((view nodeName (.radio macAddr)).or (view nodeName .radioBase)).map toInt8).filter isValidChannel

theorem getRadioChannel_reader (view : ParamView) (nodeName macAddr : String) :
    getRadioChannel view.reader nodeName macAddr = .ok (channelShown view nodeName macAddr) := rfl

def linkEnds (link : Link) : List (String × String) :=
  [(link.aNodeName, link.zNodeMac), (link.zNodeName, link.aNodeMac)]

theorem linkEnds_first (link : Link) : (link.aNodeName, link.zNodeMac) ∈ linkEnds link := by
  simp [linkEnds]

def linkRadios (link : Link) : List (String × String) :=
  [(link.aNodeName, link.aNodeMac), (link.zNodeName, link.zNodeMac)]

theorem linkRadios_first (link : Link) : (link.aNodeName, link.aNodeMac) ∈ linkRadios link := by
  simp [linkRadios]

theorem isValidLinkChannel_iff {aChannel zChannel : Option Int} :
    isValidLinkChannel aChannel zChannel = true ↔
      ∃ channel, aChannel = some channel ∧ zChannel = some channel := by
  cases aChannel <;> cases zChannel <;> simp [isValidLinkChannel, eq_comm]

def StandardMacs (macUtils : MacUtils) (w : TopologyWrapper) : Prop :=
  ∀ link ∈ w.topology.links, getStandardizedMac macUtils link.aNodeMac = link.aNodeMac ∧
    getStandardizedMac macUtils link.zNodeMac = link.zNodeMac

instance (macUtils : MacUtils) (w : TopologyWrapper) : Decidable (StandardMacs macUtils w) :=
  inferInstanceAs (Decidable (∀ link ∈ w.topology.links, _))

open List Option Function Nat

/-! ### The algorithm -/

/-- `TopologyWrapper::getSameRadioLinks`. -/
def TopologyWrapper.getSameRadioLinks (w : TopologyWrapper) (link : Link) : List Link :=
  if isRadioLink link then
    (w.getLinksByRadioMac link.aNodeMac ++ w.getLinksByRadioMac link.zNodeMac).filter
      fun radioLink => isRadioLink radioLink && radioLink.name ≠ link.name
  else []

/-- `LinkGroupHelper::GroupNameToLinkNames`. -/
abbrev GroupNameToLinkNames := List (String × Finset String)

/-- The local variables of `getLinkGroups`. -/
structure Grouping where
  visitedLinks : Finset String := ∅
  link2GroupName : String → Option String := fun _ => none
  group2Links : GroupNameToLinkNames := []

def setGroupName (groupName : String) (link2GroupName : String → Option String) (link : Link) :
    String → Option String :=
  update link2GroupName link.name (some groupName)

/-- The loop body of `getLinkGroups`, with the links that it pushes. -/
def groupLink (w : TopologyWrapper) (s : Grouping) (link : Link) : Grouping × List Link :=
  if isRadioLink link = false ∨ link.name ∈ s.visitedLinks then (s, [])
  else
    -- the first link of a group gives it its name
    let groupName := (s.link2GroupName link.name).getD link.name
    let dependentLinks := w.getSameRadioLinks link
    ({ visitedLinks := insert link.name s.visitedLinks
       link2GroupName := (link :: dependentLinks).foldl (setGroupName groupName) s.link2GroupName
       group2Links := upsert ∅ groupName (insert link.name) s.group2Links },
      dependentLinks.reverse)

def linkRounds (w : TopologyWrapper) : Nat :=
  w.topology.links.length + w.topology.links.length * (2 * w.topology.links.length + 1)

/-- `LinkGroupHelper::getLinkGroups`. -/
def getLinkGroups (w : TopologyWrapper) : GroupNameToLinkNames :=
  (Id.run (Stack.drain (fun s link => pure (groupLink w s link)) (linkRounds w) w.topology.links
    {})).group2Links

/-! ### Links of one radio -/

def sharesRadio (one two : Link) : Prop :=
  two.aNodeMac = one.aNodeMac ∨ two.zNodeMac = one.aNodeMac ∨ two.aNodeMac = one.zNodeMac ∨
    two.zNodeMac = one.zNodeMac

variable {one two : Link}

theorem sharesRadio.symm (shared : sharesRadio one two) : sharesRadio two one := by
  unfold sharesRadio at *
  grind

variable {link : Link}

theorem isRadioLink_iff : isRadioLink link = true ↔
      link.linkType = .WIRELESS ∧ link.aNodeMac ≠ "" ∧ link.zNodeMac ≠ "" := by
  simp [isRadioLink, and_assoc]

section SameRadio

variable {w : TopologyWrapper} {other : Link}

theorem mem_getLinksByRadioMac {radioMac : String} : link ∈ w.getLinksByRadioMac radioMac ↔
      radioMac ≠ "" ∧ link ∈ w.topology.links ∧
        (link.aNodeMac = radioMac ∨ link.zNodeMac = radioMac) := by
  unfold getLinksByRadioMac
  split
  · next empty => simp [empty]
  · next given => simp [given]

theorem mem_getSameRadioLinks : other ∈ w.getSameRadioLinks link ↔
      isRadioLink link = true ∧ isRadioLink other = true ∧ other ∈ w.topology.links ∧
        other.name ≠ link.name ∧ sharesRadio link other := by
  unfold getSameRadioLinks
  by_cases radio : isRadioLink link = true
  · obtain ⟨_, aGiven, zGiven⟩ := isRadioLink_iff.mp radio
    rw [if_pos radio]
    simp only [mem_filter, mem_append, mem_getLinksByRadioMac, Bool.and_eq_true,
      decide_eq_true_eq, sharesRadio]
    tauto
  · simp [radio]

theorem getSameRadioLinks_symm (isLink : link ∈ w.topology.links)
    (dependent : other ∈ w.getSameRadioLinks link) : link ∈ w.getSameRadioLinks other := by
  obtain ⟨radio, otherRadio, _, differs, shared⟩ := mem_getSameRadioLinks.mp dependent
  exact mem_getSameRadioLinks.mpr ⟨otherRadio, radio, isLink, differs.symm, shared.symm⟩

/-- Two wireless links of a topology that share a radio, or the same link twice. -/
def RadioNeighbors (w : TopologyWrapper) (one two : Link) : Prop :=
  (one ∈ w.topology.links ∧ isRadioLink one = true) ∧
    (two ∈ w.topology.links ∧ isRadioLink two = true) ∧ sharesRadio one two

theorem RadioNeighbors.refl (isLink : link ∈ w.topology.links) (radio : isRadioLink link = true) :
    RadioNeighbors w link link :=
  ⟨⟨isLink, radio⟩, ⟨isLink, radio⟩, .inl rfl⟩

theorem length_getSameRadioLinks (w : TopologyWrapper) (link : Link) :
    (w.getSameRadioLinks link).length ≤ 2 * w.topology.links.length := by
  have few : ∀ radioMac, (w.getLinksByRadioMac radioMac).length ≤ w.topology.links.length := by
    intro radioMac
    unfold getLinksByRadioMac
    split
    · exact zero_le _
    · exact length_filter_le _ _
  unfold getSameRadioLinks
  split
  · have kept := length_filter_le
      (fun radioLink : Link => isRadioLink radioLink && radioLink.name ≠ link.name)
      (w.getLinksByRadioMac link.aNodeMac ++ w.getLinksByRadioMac link.zNodeMac)
    rw [length_append] at kept
    have atA := few link.aNodeMac
    have atZ := few link.zNodeMac
    omega
  · exact zero_le _

end SameRadio

/-! ### Groups in the making -/

theorem foldl_setGroupName (groupName : String) (links : List Link)
    (link2GroupName : String → Option String) (name : String) :
    links.foldl (setGroupName groupName) link2GroupName name =
      if name ∈ links.map Link.name then some groupName else link2GroupName name := by
  induction links generalizing link2GroupName with
  | nil => simp
  | cons _ links ih =>
    rw [foldl_cons, ih, setGroupName, update_apply]
    by_cases later : name ∈ links.map Link.name
    · simp only [map_cons, mem_cons, later, if_true, or_true]
    · simp only [map_cons, mem_cons, later, if_false, or_false]

def GroupNameToLinkNames.Holds (groups : GroupNameToLinkNames) (groupName linkName : String) :
    Prop :=
  ∃ linkNames, find groupName groups = some linkNames ∧ linkName ∈ linkNames

variable {groupName : String}

theorem holds_upsert {groups : GroupNameToLinkNames} {linkName other name : String} :
    GroupNameToLinkNames.Holds (upsert ∅ groupName (insert linkName) groups) other name ↔
      (other = groupName ∧ name = linkName) ∨ groups.Holds other name := by
  unfold GroupNameToLinkNames.Holds
  rw [find_upsert]
  by_cases same : other = groupName
  · subst same
    cases find other groups with
    | none | some linkNames => simp
  · have differs : ¬ groupName = other := fun equal => same equal.symm
    simp [same, differs]

/-- The links on top of the stack share a radio with a link of the group that is being collected;
below are links of the topology that have not been looked at. -/
structure Collecting (w : TopologyWrapper) (stack : List Link) (s : Grouping)
    (top base : List Link) (current : String) : Prop where
  split : stack = top ++ base
  links : ∀ link ∈ stack, link ∈ w.topology.links
  covered : ∀ link ∈ w.topology.links, isRadioLink link = true →
    link.name ∈ s.visitedLinks ∨ link ∈ stack
  visited : ∀ name ∈ s.visitedLinks, s.link2GroupName name ≠ none ∧
    ∃ link ∈ w.topology.links, link.name = name ∧ isRadioLink link = true
  collected : ∀ link ∈ top, s.link2GroupName link.name = some current
  waiting : ∀ link ∈ w.topology.links, isRadioLink link = true → link.name ∉ s.visitedLinks →
    s.link2GroupName link.name ≠ none → link ∈ top
  closed : ∀ link ∈ w.topology.links, link.name ∈ s.visitedLinks →
    ∀ other ∈ w.getSameRadioLinks link, s.link2GroupName other.name = s.link2GroupName link.name ∧
      (other.name ∈ s.visitedLinks ∨ other ∈ top)
  holds : ∀ groupName name, s.group2Links.Holds groupName name ↔
    name ∈ s.visitedLinks ∧ s.link2GroupName name = some groupName

section Step

variable {w : TopologyWrapper} {rest : List Link} {s : Grouping}

variable {top base : List Link} {current : String}

section

variable (collecting : Collecting w (link :: rest) s top base current)
include collecting

theorem Collecting.pop :
    ∃ top' base', rest = top' ++ base' ∧ (∀ other ∈ top, other = link ∨ other ∈ top') ∧
      (∀ other ∈ top', other ∈ top) ∧
      (top ≠ [] → s.link2GroupName link.name = some current) := by
  cases top with
  | nil =>
    refine ⟨[], rest, rfl, by simp, by simp, by simp⟩
  | cons first others =>
    obtain ⟨rfl, rfl⟩ : link = first ∧ rest = others ++ base := by
      simpa using collecting.split
    refine ⟨others, base, rfl, ?_, ?_, ?_⟩
    · intro _ member
      exact mem_cons.mp member
    · intro _ member
      exact mem_cons_of_mem _ member
    · intro _
      exact collecting.collected link (by simp)

theorem Collecting.skip (skipped : isRadioLink link = false ∨ link.name ∈ s.visitedLinks) :
    ∃ top' base', Collecting w rest s top' base' current := by
  obtain ⟨top', base', split, lost, kept, _⟩ := collecting.pop
  have done : isRadioLink link = true → link.name ∈ s.visitedLinks := by
    intro radio
    exact skipped.resolve_left (by simp [radio])
  refine ⟨top', base', split, ?_, ?_, collecting.visited, ?_, ?_, ?_, collecting.holds⟩
  · intro other member
    exact collecting.links other (by simp [member])
  · intro other isLink radio
    rcases collecting.covered other isLink radio with done | onStack
    · exact .inl done
    · rcases mem_cons.mp onStack with rfl | later
      · exact .inl (done radio)
      · exact .inr later
  · intro other member
    exact collecting.collected other (kept other member)
  · intro other isLink radio fresh named
    rcases lost other (collecting.waiting other isLink radio fresh named) with rfl | remains
    · exact absurd (done radio) fresh
    · exact remains
  · intro visitedLink isLink isDone other dependent
    obtain ⟨sameGroup, reached⟩ := collecting.closed visitedLink isLink isDone other dependent
    refine ⟨sameGroup, ?_⟩
    rcases reached with visited | onTop
    · exact .inl visited
    · rcases lost other onTop with rfl | remains
      · exact .inl (done (mem_getSameRadioLinks.mp dependent).2.1)
      · exact .inr remains

theorem Collecting.agrees
    (radio : isRadioLink link = true) (fresh : link.name ∉ s.visitedLinks) {name : String}
    (near : name ∈ (link :: w.getSameRadioLinks link).map Link.name)
    (named : s.link2GroupName name = some groupName) :
    (s.link2GroupName link.name).getD link.name = groupName := by
  have isLink := collecting.links link (by simp)
  obtain ⟨other, member, rfl⟩ := mem_map.mp near
  rcases mem_cons.mp member with rfl | dependent
  · rw [named, getD_some]
  · obtain ⟨_, otherRadio, isOther, _, _⟩ := mem_getSameRadioLinks.mp dependent
    by_cases done : other.name ∈ s.visitedLinks
    · -- the other link has named this one when it was visited
      have back := collecting.closed other isOther done link (getSameRadioLinks_symm isLink dependent)
      rw [back.1, named, getD_some]
    · -- the other link is on top of the stack, and so is this one
      have onTop := collecting.waiting other isOther otherRadio done (by simp [named])
      obtain ⟨_, _, _, _, _, atTop⟩ := collecting.pop
      have same := collecting.collected other onTop
      rw [atTop (ne_nil_of_mem onTop), getD_some]
      rw [named] at same
      exact (some.inj same).symm

end

/-- What visiting a link changes. -/
structure JoinsGroup (w : TopologyWrapper) (link : Link) (groupName : String) (s s' : Grouping) :
    Prop where
  visitedLinks : s'.visitedLinks = insert link.name s.visitedLinks
  near : ∀ name ∈ (link :: w.getSameRadioLinks link).map Link.name,
    s'.link2GroupName name = some groupName
  far : ∀ name ∉ (link :: w.getSameRadioLinks link).map Link.name,
    s'.link2GroupName name = s.link2GroupName name
  holds : ∀ group name, s'.group2Links.Holds group name ↔
    (group = groupName ∧ name = link.name) ∨ s.group2Links.Holds group name

theorem groupLink_visit (radio : isRadioLink link = true) (fresh : link.name ∉ s.visitedLinks) :
    (groupLink w s link).2 = (w.getSameRadioLinks link).reverse ∧
      JoinsGroup w link ((s.link2GroupName link.name).getD link.name) s (groupLink w s link).1 := by
  have taken : ¬ (isRadioLink link = false ∨ link.name ∈ s.visitedLinks) := by
    simp [radio, fresh]
  rw [groupLink, if_neg taken]
  refine ⟨rfl, rfl, ?_, ?_, ?_⟩
  · intro name near
    exact (foldl_setGroupName _ _ _ name).trans (if_pos near)
  · intro name far
    exact (foldl_setGroupName _ _ _ name).trans (if_neg far)
  · intro group name
    exact holds_upsert

theorem Collecting.visit {current : String} {s' : Grouping}
    (unique : (w.topology.links.map Link.name).Nodup)
    (collecting : Collecting w (link :: rest) s top base current) (radio : isRadioLink link = true)
    (fresh : link.name ∉ s.visitedLinks)
    (isGroup : (s.link2GroupName link.name).getD link.name = groupName)
    (entered : JoinsGroup w link groupName s s') :
    ∃ top' base', Collecting w ((w.getSameRadioLinks link).reverse ++ rest) s' top' base'
      groupName := by
  obtain ⟨top', base', split, lost, kept, atTop⟩ := collecting.pop
  have isLink := collecting.links link (by simp)
  have own : s'.link2GroupName link.name = some groupName := entered.near _ (by simp)
  have dependents : ∀ other ∈ w.getSameRadioLinks link,
      s'.link2GroupName other.name = some groupName := by
    intro _ dependent
    exact entered.near _ (mem_map_of_mem (mem_cons_of_mem _ dependent))
  have keeps : ∀ name, s.link2GroupName name ≠ none →
      s'.link2GroupName name = s.link2GroupName name := by
    intro name named
    obtain ⟨_, isOld⟩ := ne_none_iff_exists'.mp named
    by_cases near : name ∈ (link :: w.getSameRadioLinks link).map Link.name
    · rw [entered.near name near, isOld, ← collecting.agrees radio fresh near isOld, isGroup]
    · exact entered.far name near
  refine ⟨(w.getSameRadioLinks link).reverse ++ top', base', ?_, ?_, ?_, ?_, ?_, ?_, ?_, ?_⟩
  · rw [split, append_assoc]
  · intro other member
    rcases mem_append.mp member with pushed | later
    · exact (mem_getSameRadioLinks.mp (mem_reverse.mp pushed)).2.2.1
    · exact collecting.links other (by simp [later])
  · intro other isOther otherRadio
    rw [entered.visitedLinks]
    rcases collecting.covered other isOther otherRadio with done | onStack
    · exact .inl (Finset.mem_insert_of_mem done)
    · rcases mem_cons.mp onStack with rfl | later
      · exact .inl (Finset.mem_insert_self _ _)
      · exact .inr (mem_append_right _ later)
  · intro name member
    rw [entered.visitedLinks] at member
    rcases Finset.mem_insert.mp member with rfl | done
    · exact ⟨by simp [own], link, isLink, rfl, radio⟩
    · obtain ⟨named, isVisited⟩ := collecting.visited name done
      rw [keeps name named]
      exact ⟨named, isVisited⟩
  · intro other member
    rcases mem_append.mp member with pushed | later
    · exact dependents other (mem_reverse.mp pushed)
    · have onTop := kept other later
      have named := collecting.collected other onTop
      have here := atTop (ne_nil_of_mem onTop)
      rw [keeps other.name (by simp [named]), named, ← isGroup, here, getD_some]
  · intro other isOther otherRadio unseen named
    rw [entered.visitedLinks, Finset.mem_insert, not_or] at unseen
    by_cases near : other.name ∈ (link :: w.getSameRadioLinks link).map Link.name
    · obtain ⟨same, member, sameName⟩ := mem_map.mp near
      rcases mem_cons.mp member with rfl | dependent
      · exact absurd sameName.symm unseen.1
      · have isSame := (mem_getSameRadioLinks.mp dependent).2.2.1
        have equal : same = other := inj_on_of_nodup_map unique isSame isOther sameName
        exact mem_append_left _ (mem_reverse.mpr (equal ▸ dependent))
    · rw [entered.far _ near] at named
      rcases lost other (collecting.waiting other isOther otherRadio unseen.2 named) with
        rfl | remains
      · exact absurd rfl unseen.1
      · exact mem_append_right _ remains
  · intro visitedLink isVisited done other dependent
    rw [entered.visitedLinks] at done ⊢
    rcases Finset.mem_insert.mp done with sameName | old
    · have equal : visitedLink = link := inj_on_of_nodup_map unique isVisited isLink sameName
      subst equal
      rw [own, dependents other dependent]
      exact ⟨rfl, .inr (mem_append_left _ (mem_reverse.mpr dependent))⟩
    · obtain ⟨sameGroup, reached⟩ := collecting.closed visitedLink isVisited old other dependent
      have named := (collecting.visited _ old).1
      have otherNamed : s.link2GroupName other.name ≠ none := by
        rw [sameGroup]
        exact named
      rw [keeps _ named, keeps _ otherNamed, sameGroup]
      refine ⟨rfl, ?_⟩
      rcases reached with visited | onTop
      · exact .inl (Finset.mem_insert_of_mem visited)
      · rcases lost other onTop with rfl | remains
        · exact .inl (Finset.mem_insert_self _ _)
        · exact .inr (mem_append_right _ remains)
  · intro _ name
    rw [entered.holds, collecting.holds, entered.visitedLinks, Finset.mem_insert]
    by_cases same : name = link.name
    · subst same
      simp [own, fresh, eq_comm]
    · simp only [same, and_false, false_or]
      apply and_congr_right
      intro done
      rw [keeps _ (collecting.visited _ done).1]

/-- No group is empty, and every link that has got a group is connected to the link that has given
the group its name. -/
structure Rooted (w : TopologyWrapper) (s : Grouping) : Prop where
  nonempty : ∀ groupName linkNames, find groupName s.group2Links = some linkNames →
    linkNames.Nonempty
  root : ∀ link ∈ w.topology.links, isRadioLink link = true → ∀ groupName,
    s.link2GroupName link.name = some groupName →
      ∃ root ∈ w.topology.links, root.name = groupName ∧
        Relation.TransGen (RadioNeighbors w) root link

theorem Rooted.visit (unique : (w.topology.links.map Link.name).Nodup)
    (rooted : Rooted w s) (isLink : link ∈ w.topology.links) (radio : isRadioLink link = true)
    (isGroup : (s.link2GroupName link.name).getD link.name = groupName) {other : Link}
    (isOther : other ∈ w.topology.links)
    (near : other.name ∈ (link :: w.getSameRadioLinks link).map Link.name) :
    ∃ root ∈ w.topology.links, root.name = groupName ∧
      Relation.TransGen (RadioNeighbors w) root other := by
  obtain ⟨root, isRoot, rootName, toLink⟩ : ∃ root ∈ w.topology.links, root.name = groupName ∧
      Relation.TransGen (RadioNeighbors w) root link := by
    cases named : s.link2GroupName link.name with
    | none =>
      rw [named] at isGroup
      exact ⟨link, isLink, isGroup, .single (.refl isLink radio)⟩
    | some =>
      rw [named] at isGroup
      exact rooted.root link isLink radio groupName (isGroup ▸ named)
  refine ⟨root, isRoot, rootName, toLink.tail ?_⟩
  obtain ⟨_, member, sameName⟩ := mem_map.mp near
  rcases mem_cons.mp member with rfl | dependent
  · cases inj_on_of_nodup_map unique isLink isOther sameName
    exact .refl isLink radio
  · obtain ⟨_, sameRadio, isSame, _, shared⟩ := mem_getSameRadioLinks.mp dependent
    cases inj_on_of_nodup_map unique isSame isOther sameName
    exact ⟨⟨isLink, radio⟩, ⟨isSame, sameRadio⟩, shared⟩

theorem Rooted.round (unique : (w.topology.links.map Link.name).Nodup) (rooted : Rooted w s)
    (isLink : link ∈ w.topology.links) : Rooted w (groupLink w s link).1 := by
  by_cases skipped : isRadioLink link = false ∨ link.name ∈ s.visitedLinks
  · rw [groupLink, if_pos skipped]
    exact rooted
  · rw [not_or, Bool.not_eq_false] at skipped
    obtain ⟨_, entered⟩ := groupLink_visit skipped.1 skipped.2
    constructor
    · intro groupName linkNames found
      rw [groupLink, if_neg (by simp [skipped])] at found
      rw [find_upsert] at found
      split at found
      · cases found
        exact Finset.insert_nonempty _ _
      · exact rooted.nonempty groupName linkNames found
    · intro other isOther otherRadio groupName named
      by_cases near : other.name ∈ (link :: w.getSameRadioLinks link).map Link.name
      · rw [entered.near _ near] at named
        exact rooted.visit unique isLink skipped.1 (some.inj named) isOther near
      · rw [entered.far _ near] at named
        exact rooted.root other isOther otherRadio groupName named

end Step

/-! ### The groups -/

section Groups

variable {w : TopologyWrapper} (unique : (w.topology.links.map Link.name).Nodup)

include unique

theorem Collecting.round {rest : List Link} {s : Grouping}
    (collecting : ∃ top base current, Collecting w (link :: rest) s top base current) :
    (∃ top base current, Collecting w ((groupLink w s link).2 ++ rest) (groupLink w s link).1 top
        base current) ∧
      (groupLink w s link).2.length +
          Stack.credit (w.topology.links.map Link.name).toFinset (groupLink w s link).1.visitedLinks
            (2 * w.topology.links.length) ≤
        Stack.credit (w.topology.links.map Link.name).toFinset s.visitedLinks
          (2 * w.topology.links.length) := by
  obtain ⟨_, _, current, collecting⟩ := collecting
  by_cases skipped : isRadioLink link = false ∨ link.name ∈ s.visitedLinks
  · obtain ⟨top', base', kept⟩ := collecting.skip skipped
    rw [groupLink, if_pos skipped]
    exact ⟨⟨top', base', current, kept⟩, by simp⟩
  · rw [not_or, Bool.not_eq_false] at skipped
    obtain ⟨pushed, entered⟩ := groupLink_visit skipped.1 skipped.2
    obtain ⟨top', base', kept⟩ := collecting.visit unique skipped.1 skipped.2 rfl entered
    rw [pushed, entered.visitedLinks, length_reverse]
    refine ⟨⟨top', base', _, kept⟩, ?_⟩
    apply Stack.credit_insert _ skipped.2 (length_getSameRadioLinks w link)
    exact mem_toFinset.mpr (mem_map_of_mem (collecting.links link (by simp)))

theorem collecting_getLinkGroups : ∃ s current, Collecting w [] s [] [] current ∧ Rooted w s ∧
      s.group2Links = getLinkGroups w := by
  have started : ∃ top base current, Collecting w w.topology.links {} top base current := by
    refine ⟨[], w.topology.links, "", rfl, fun _ member => member, ?_, by simp, by simp, by simp,
      by simp, ?_⟩
    · intro _ isLink _
      exact .inr isLink
    · simp [GroupNameToLinkNames.Holds, find]
  have enough : w.topology.links.length + Stack.credit (w.topology.links.map Link.name).toFinset
      ({} : Grouping).visitedLinks (2 * w.topology.links.length) ≤ linkRounds w := by
    have few := Stack.credit_le (w.topology.links.map Link.name).toFinset
      ({} : Grouping).visitedLinks (2 * w.topology.links.length)
    have names : (w.topology.links.map Link.name).toFinset.card ≤ w.topology.links.length :=
      (toFinset_card_le _).trans_eq (length_map _)
    have product := mul_le_mul_right (2 * w.topology.links.length + 1) names
    unfold linkRounds
    omega
  have unnamed : Rooted w {} := ⟨by simp [find], by simp⟩
  obtain ⟨⟨top, base, current, collecting⟩, rooted⟩ := Stack.drain_rule_id
    (fun stack s => (∃ top base current, Collecting w stack s top base current) ∧ Rooted w s)
    (fun s => Stack.credit (w.topology.links.map Link.name).toFinset s.visitedLinks
      (2 * w.topology.links.length))
    (fun link rest s both => by
      obtain ⟨collecting, rooted⟩ := both
      obtain ⟨kept, paid⟩ := Collecting.round unique collecting
      obtain ⟨_, _, _, before⟩ := collecting
      exact ⟨⟨kept, rooted.round unique (before.links link (by simp))⟩, paid⟩)
    ⟨started, unnamed⟩ enough
  obtain ⟨rfl, rfl⟩ := append_eq_nil_iff.mp collecting.split.symm
  exact ⟨_, current, collecting, rooted, rfl⟩

theorem Holds.radioLink {linkName : String}
    (inGroup : (getLinkGroups w).Holds groupName linkName) :
    ∃ link ∈ w.topology.links, link.name = linkName ∧ isRadioLink link = true := by
  obtain ⟨s, _, collecting, _, groups⟩ := collecting_getLinkGroups unique
  rw [← groups, collecting.holds] at inGroup
  exact (collecting.visited linkName inGroup.1).2

theorem exists_holds (isLink : link ∈ w.topology.links)
    (radio : isRadioLink link = true) : ∃ groupName, (getLinkGroups w).Holds groupName link.name := by
  obtain ⟨s, _, collecting, _, groups⟩ := collecting_getLinkGroups unique
  have done := (collecting.covered link isLink radio).resolve_right (not_mem_nil)
  obtain ⟨groupName, named⟩ := ne_none_iff_exists'.mp (collecting.visited _ done).1
  rw [← groups]
  exact ⟨groupName, (collecting.holds groupName link.name).mpr ⟨done, named⟩⟩

variable {groupOne groupTwo : String}

theorem Holds.eq_of_sharesRadio (isOne : one ∈ w.topology.links)
    (isTwo : two ∈ w.topology.links) (shared : sharesRadio one two)
    (inOne : (getLinkGroups w).Holds groupOne one.name)
    (inTwo : (getLinkGroups w).Holds groupTwo two.name) : groupOne = groupTwo := by
  have radio : ∀ {link : Link} {groupName : String}, link ∈ w.topology.links →
      (getLinkGroups w).Holds groupName link.name → isRadioLink link = true := by
    intro link _ isLink inGroup
    obtain ⟨same, isSame, sameName, radio⟩ := Holds.radioLink unique inGroup
    have equal : same = link := inj_on_of_nodup_map unique isSame isLink sameName
    exact equal ▸ radio
  have radioOne := radio isOne inOne
  have radioTwo := radio isTwo inTwo
  obtain ⟨s, _, collecting, _, groups⟩ := collecting_getLinkGroups unique
  rw [← groups, collecting.holds] at inOne inTwo
  have sameGroup : s.link2GroupName two.name = s.link2GroupName one.name := by
    by_cases sameName : two.name = one.name
    · rw [sameName]
    · have dependent := mem_getSameRadioLinks.mpr ⟨radioOne, radioTwo, isTwo, sameName, shared⟩
      exact (collecting.closed one isOne inOne.1 two dependent).1
  rw [inOne.2, inTwo.2] at sameGroup
  exact (some.inj sameGroup).symm

theorem Holds.eq_of_same {groupOne groupTwo linkName : String}
    (inOne : (getLinkGroups w).Holds groupOne linkName)
    (inTwo : (getLinkGroups w).Holds groupTwo linkName) : groupOne = groupTwo := by
  obtain ⟨s, _, collecting, _, groups⟩ := collecting_getLinkGroups unique
  rw [← groups, collecting.holds] at inOne inTwo
  exact some.inj (inOne.2.symm.trans inTwo.2)

theorem Holds.eq_of_connected (connected : Relation.TransGen (RadioNeighbors w) one two)
    (inOne : (getLinkGroups w).Holds groupOne one.name)
    (inTwo : (getLinkGroups w).Holds groupTwo two.name) : groupOne = groupTwo := by
  induction connected generalizing groupTwo with
  | single near => exact Holds.eq_of_sharesRadio unique near.1.1 near.2.1.1 near.2.2 inOne inTwo
  | tail _ near ih =>
    obtain ⟨_, inBetween⟩ := exists_holds unique near.1.1 near.1.2
    rw [ih inBetween]
    exact Holds.eq_of_sharesRadio unique near.1.1 near.2.1.1 near.2.2 inBetween inTwo

theorem connected_of_holds (isOne : one ∈ w.topology.links)
    (radioOne : isRadioLink one = true) (isTwo : two ∈ w.topology.links)
    (radioTwo : isRadioLink two = true) (inOne : (getLinkGroups w).Holds groupName one.name)
    (inTwo : (getLinkGroups w).Holds groupName two.name) :
    Relation.TransGen (RadioNeighbors w) one two := by
  obtain ⟨s, _, collecting, rooted, groups⟩ := collecting_getLinkGroups unique
  rw [← groups, collecting.holds] at inOne inTwo
  obtain ⟨root, isRoot, rootName, toOne⟩ := rooted.root one isOne radioOne groupName inOne.2
  obtain ⟨_, isRoot', rootName', toTwo⟩ := rooted.root two isTwo radioTwo groupName inTwo.2
  cases inj_on_of_nodup_map unique isRoot isRoot' (rootName.trans rootName'.symm)
  have back : Relation.TransGen (RadioNeighbors w) one root :=
    Relation.TransGen.mono (fun _ _ near => ⟨near.2.1, near.1, near.2.2.symm⟩) _ _ toOne.swap
  exact back.trans toTwo

/-- The groups are a partition of the wireless links with two MACs, by name: none is empty, and
every such link, and nothing else, is in exactly one.  Links are in one group if and only if they
are connected by links that share a radio. -/
theorem linkGroups_partition :
    (∀ groupName linkNames, find groupName (getLinkGroups w) = some linkNames →
      linkNames.Nonempty) ∧
    (∀ linkName, (∃ link ∈ w.topology.links, link.name = linkName ∧ isRadioLink link = true) ↔
      ∃ groupName, (getLinkGroups w).Holds groupName linkName) ∧
    (∀ groupOne groupTwo linkName, (getLinkGroups w).Holds groupOne linkName →
      (getLinkGroups w).Holds groupTwo linkName → groupOne = groupTwo) ∧
    ∀ one ∈ w.topology.links, isRadioLink one = true →
      ∀ two ∈ w.topology.links, isRadioLink two = true →
        ((∃ groupName, (getLinkGroups w).Holds groupName one.name ∧
            (getLinkGroups w).Holds groupName two.name) ↔
          Relation.TransGen (RadioNeighbors w) one two) := by
  refine ⟨?_, ?_, fun _ _ _ => Holds.eq_of_same unique, ?_⟩
  · obtain ⟨s, _, _, rooted, groups⟩ := collecting_getLinkGroups unique
    exact groups ▸ rooted.nonempty
  · intro linkName
    constructor
    · rintro ⟨_, isLink, rfl, radio⟩
      exact exists_holds unique isLink radio
    · rintro ⟨_, inGroup⟩
      exact Holds.radioLink unique inGroup
  · intro _ isOne radioOne _ isTwo radioTwo
    constructor
    · rintro ⟨_, inOne, inTwo⟩
      exact connected_of_holds unique isOne radioOne isTwo radioTwo inOne inTwo
    · intro connected
      obtain ⟨groupOne, inOne⟩ := exists_holds unique isOne radioOne
      obtain ⟨_, inTwo⟩ := exists_holds unique isTwo radioTwo
      cases Holds.eq_of_connected unique connected inOne inTwo
      exact ⟨groupOne, inOne, inTwo⟩

end Groups

/-- Two links of one radio are in one group. -/
theorem linkGroups_partition_of_two :
    let one := radioLink "a" "02:00:00:00:00:01" "b" "02:00:00:00:00:02"
    let two := radioLink "a" "02:00:00:00:00:01" "c" "02:00:00:00:00:03"
    let groups := getLinkGroups (.ofTopology { links := [one, two] } false)
    ∃ groupName, groups.Holds groupName one.name ∧ groups.Holds groupName two.name := by
  intro one two _
  obtain ⟨_, _, _, sameGroup⟩ :=
    linkGroups_partition (w := .ofTopology { links := [one, two] } false) (by decide +kernel)
  exact (sameGroup one (.head _) rfl two (.tail _ (.head _)) rfl).mpr
    (.single ⟨⟨.head _, rfl⟩, ⟨.tail _ (.head _), rfl⟩, .inl rfl⟩)

/-- The second link between `a` and `b` has the name of the first one and is taken to be visited,
so that its radio does not lead from one group to the other. -/
theorem linkGroups_partition_fails :
    let mac := MacUtils.ofCanonical ["02:00:00:00:00:01", "02:00:00:00:00:02", "02:00:00:00:00:03",
      "02:00:00:00:00:04", "02:00:00:00:00:05"] (by decide +kernel)
    ∃ w, Reachable mac w ∧ ∃ one two, RadioNeighbors w one two ∧ ∀ groupName,
      ¬ ((getLinkGroups w).Holds groupName one.name ∧
        (getLinkGroups w).Holds groupName two.name) := by
  intro mac
  let first := radioLink "a" "02:00:00:00:00:01" "b" "02:00:00:00:00:02"
  let second := radioLink "a" "02:00:00:00:00:03" "b" "02:00:00:00:00:04"
  let other := radioLink "b" "02:00:00:00:00:04" "c" "02:00:00:00:00:05"
  obtain ⟨w, reached, seen⟩ := reachable_of_build mac .sorted
    (oneSite [{ name := "a", wlanMacAddrs := ["02:00:00:00:00:01", "02:00:00:00:00:03"] },
        { name := "b", wlanMacAddrs := ["02:00:00:00:00:02", "02:00:00:00:00:04"] },
        { name := "c", wlanMacAddrs := ["02:00:00:00:00:05"] }] [first, second, other])
    false [] (fun w => (w.topology.links, getLinkGroups w))
    ([first, second, other], [("link-a-b", {"link-a-b"}), ("link-b-c", {"link-b-c"})])
    (by decide +kernel)
  obtain ⟨links, groups⟩ := Prod.mk.inj seen
  refine ⟨w, reached, second, other, ?_, ?_⟩
  · refine ⟨⟨?_, rfl⟩, ⟨?_, rfl⟩, .inr (.inr (.inl rfl))⟩ <;> rw [links] <;> decide +kernel
  · rw [groups]
    rintro _ ⟨⟨linkNames, stored, listed⟩, _, stored', listed'⟩
    cases stored.symm.trans stored'
    have group : linkNames = {"link-a-b"} ∨ linkNames = {"link-b-c"} := by
      have entry := mem_of_find stored
      simp only [mem_cons, Prod.mk.injEq, not_mem_nil, or_false] at entry
      exact entry.imp And.right And.right
    rcases group with rfl | rfl
    · exact absurd listed' (by decide +kernel)
    · exact absurd listed (by decide +kernel)

end Terragraph
