/-
Module: Terragraph.Minion.LinkAuthorization
Purpose: To which neighbour the minion's `IgnitionApp` attributes a link's authorization.
Trusted boundary: the order in which the map of neighbours is traversed is a parameter
Main exports: IgnitionApp, Attributed, authorized_neighbor_was_up
-/
import Terragraph.Lib.AssocList
import Terragraph.Lib.Transition
import Terragraph.Topology.Wrapper

namespace Terragraph.Minion

open AssocList Transition List

/-- Where a `LINK_UP` was received. -/
structure LinkUp where
  radioMac : String
  ifname : String
  deriving DecidableEq

/-- The fields of `IgnitionApp` that follow the current ignition, and `getIgnitedNeighbors`. -/
structure IgnitionApp where
  currResponderMac : String := ""
  currResponderLinkUpIface : String := ""
  ignitedNeighbors : List (String × LinkUp) := []

inductive DriverLinkStatusType where
  | linkUp
  | linkDown
  | linkPause

/-- The messages and timeouts that the handlers below are called for. Others change nothing here. -/
inductive Event where
  | setLinkUp (responderMac : String)
  | linkStatus (status : DriverLinkStatusType) (macAddr : String) (link : LinkUp)
  | wsecStatus (link : LinkUp)
  | wsecLinkupStatus (link : LinkUp)
  | devDown (radioMac : String)
  | ignitionTimeout

/-- `LINK_AUTHORIZED`. -/
structure LinkAuthorized where
  responderMac : String
  link : LinkUp
  wsecEnable : Int

namespace IgnitionApp

def resetCurrentIgnitionState (app : IgnitionApp) : IgnitionApp :=
  { app with currResponderMac := "", currResponderLinkUpIface := "" }

def handleSetLinkUpReq (responderMac : String) (app : IgnitionApp) : IgnitionApp :=
  if app.currResponderMac = "" ∧ find responderMac app.ignitedNeighbors = none then
    { app with currResponderMac := responderMac }
  else
    app

def handleDriverLinkStatus (status : DriverLinkStatusType) (responderMac : String) (link : LinkUp)
    (app : IgnitionApp) : IgnitionApp :=
  match status with
  | .linkUp =>
    let ignited := upsert link responderMac (fun _ => link) app.ignitedNeighbors
    if find responderMac app.ignitedNeighbors = none then
      { ignitedNeighbors := ignited
        currResponderLinkUpIface := link.ifname
        -- on the responder, the MAC is not yet set
        currResponderMac := if app.currResponderMac = "" then responderMac else app.currResponderMac }
    else
      { app with ignitedNeighbors := ignited }
  | .linkDown =>
    let ignited := remove responderMac app.ignitedNeighbors
    if responderMac = app.currResponderMac then
      resetCurrentIgnitionState { app with ignitedNeighbors := ignited }
    else
      { app with ignitedNeighbors := ignited }
  | .linkPause => app

/-- The neighbours that are up on a link, as the map of neighbours is traversed. -/
def neighborsOn (order : SetOrder) (link : LinkUp) (app : IgnitionApp) : List String :=
  (order.toList (keys app.ignitedNeighbors).toFinset).filter fun mac =>
    find mac app.ignitedNeighbors = some link

/-- `processDriverWsecStatus`, for links in open mode. -/
def processDriverWsecStatus (order : SetOrder) (link : LinkUp) (app : IgnitionApp) :
    IgnitionApp × List LinkAuthorized :=
  (if link.ifname = app.currResponderLinkUpIface then app.resetCurrentIgnitionState else app,
    ((app.neighborsOn order link).head?.map fun mac => ⟨mac, link, 0⟩).toList)

/-- The neighbour that `processDriverWsecLinkupStatus` finds last, or the empty MAC. -/
def authorizedMac (order : SetOrder) (link : LinkUp) (app : IgnitionApp) : String :=
  if app.currResponderLinkUpIface = link.ifname then app.currResponderMac
  else (app.neighborsOn order link).getLastD ""

def processDriverWsecLinkupStatus (order : SetOrder) (wsecEnable : Int) (link : LinkUp) (app : IgnitionApp) :
    IgnitionApp × List LinkAuthorized :=
  if link.ifname = "" then
    (app, [])
  else
    (if app.currResponderLinkUpIface = link.ifname then app.resetCurrentIgnitionState else app,
      [⟨app.authorizedMac order link, link, wsecEnable⟩])

/-- `processDevUpDownStatus`, for a baseband that goes offline. -/
def processDevDown (radioMac : String) (app : IgnitionApp) : IgnitionApp :=
  (app.ignitedNeighbors.filter fun nbr => nbr.2.radioMac = radioMac).foldl
    (fun app nbr => app.handleDriverLinkStatus .linkDown nbr.1 nbr.2) app

def exec (order : SetOrder) (wsecEnable : Int) (app : IgnitionApp) :
    Event → IgnitionApp × List LinkAuthorized
  | .setLinkUp responderMac => (app.handleSetLinkUpReq responderMac, [])
  | .linkStatus status macAddr link => (app.handleDriverLinkStatus status macAddr link, [])
  | .wsecStatus link => app.processDriverWsecStatus order link
  | .wsecLinkupStatus link => app.processDriverWsecLinkupStatus order wsecEnable link
  | .devDown radioMac => (app.processDevDown radioMac, [])
  | .ignitionTimeout => (app.resetCurrentIgnitionState, [])

end IgnitionApp

/-- The most recent `LINK_UP` of every neighbour. -/
def Event.record (lastUp : String → Option LinkUp) : Event → String → Option LinkUp
  | .linkStatus .linkUp macAddr link => fun mac => if mac = macAddr then some link else lastUp mac
  | _ => lastUp

/-- A neighbour comes up only while no other is ignited and stays on its interface, an interface
belongs to one radio, and a link is authorized when a neighbour is up on it. -/
def Orderly (app : IgnitionApp) : Event → Prop
  | .linkStatus .linkUp mac link => mac ≠ "" ∧
    (∀ before, find mac app.ignitedNeighbors = some before → before = link) ∧
    (find mac app.ignitedNeighbors = none → app.currResponderMac = "" ∨ app.currResponderMac = mac) ∧
    ∀ nbr ∈ app.ignitedNeighbors, nbr.2.ifname = link.ifname → nbr.2 = link
  | .wsecLinkupStatus link => ∃ nbr ∈ app.ignitedNeighbors, nbr.2 = link
  | _ => True

/-- Neighbours that are up came up last where they are recorded, an interface belongs to one radio,
and the current interface is that of the ignited neighbour. -/
structure Attributed (app : IgnitionApp) (lastUp : String → Option LinkUp) : Prop where
  nodup : (keys app.ignitedNeighbors).Nodup
  up : ∀ nbr ∈ app.ignitedNeighbors, nbr.1 ≠ "" ∧ lastUp nbr.1 = some nbr.2
  radio : ∀ one ∈ app.ignitedNeighbors, ∀ two ∈ app.ignitedNeighbors,
    one.2.ifname = two.2.ifname → one.2 = two.2
  current : app.currResponderLinkUpIface ≠ "" →
    ∃ nbr ∈ app.ignitedNeighbors, nbr.1 = app.currResponderMac ∧
      nbr.2.ifname = app.currResponderLinkUpIface

namespace Attributed

variable {app : IgnitionApp} {lastUp : String → Option LinkUp}

section

variable (holds : Attributed app lastUp)
include holds

theorem reset : Attributed app.resetCurrentIgnitionState lastUp :=
  ⟨holds.nodup, holds.up, holds.radio, fun current => absurd rfl current⟩

theorem linkDown (mac : String) (link : LinkUp) :
    Attributed (app.handleDriverLinkStatus .linkDown mac link) lastUp := by
  have fewer : ∀ {nbr}, nbr ∈ remove mac app.ignitedNeighbors → nbr ∈ app.ignitedNeighbors :=
    fun member => mem_of_mem_filter member
  simp only [IgnitionApp.handleDriverLinkStatus]
  split
  · exact ⟨nodup_keys_remove holds.nodup, fun nbr member => holds.up nbr (fewer member),
      fun one isOne two isTwo => holds.radio one (fewer isOne) two (fewer isTwo),
      fun current => absurd rfl current⟩
  · next apart =>
    refine ⟨nodup_keys_remove holds.nodup, fun nbr member => holds.up nbr (fewer member),
      fun one isOne two isTwo => holds.radio one (fewer isOne) two (fewer isTwo), fun current => ?_⟩
    obtain ⟨nbr, member, isMac, isIface⟩ := holds.current current
    refine ⟨nbr, mem_filter.mpr ⟨member, ?_⟩, isMac, isIface⟩
    simpa [isMac] using Ne.symm apart

theorem linkUp {mac : String} {link : LinkUp}
    (orderly : Orderly app (.linkStatus .linkUp mac link)) :
    Attributed (app.handleDriverLinkStatus .linkUp mac link)
      (Event.record lastUp (.linkStatus .linkUp mac link)) := by
  obtain ⟨named, stays, alone, owned⟩ := orderly
  have members : ∀ {nbr}, nbr ∈ upsert link mac (fun _ => link) app.ignitedNeighbors ↔
      (nbr.1 ≠ mac ∧ nbr ∈ app.ignitedNeighbors) ∨ (nbr.1 = mac ∧ nbr.2 = link) :=
    mem_upsert holds.nodup
  have nodup : (keys (upsert link mac (fun _ => link) app.ignitedNeighbors)).Nodup :=
    nodup_keys_upsert holds.nodup
  have up : ∀ nbr ∈ upsert link mac (fun _ => link) app.ignitedNeighbors, nbr.1 ≠ "" ∧
      Event.record lastUp (.linkStatus .linkUp mac link) nbr.1 = some nbr.2 := by
    intro nbr member
    simp only [Event.record]
    rcases members.mp member with ⟨other, member⟩ | ⟨here, isLink⟩
    · rw [if_neg other]
      exact holds.up nbr member
    · rw [if_pos here, here, isLink]
      exact ⟨named, rfl⟩
  have radio : ∀ one ∈ upsert link mac (fun _ => link) app.ignitedNeighbors,
      ∀ two ∈ upsert link mac (fun _ => link) app.ignitedNeighbors,
        one.2.ifname = two.2.ifname → one.2 = two.2 := by
    intro one isOne two isTwo same
    rcases members.mp isOne with ⟨_, isOne⟩ | ⟨_, isLink⟩
    · rcases members.mp isTwo with ⟨_, isTwo⟩ | ⟨_, isLink⟩
      · exact holds.radio one isOne two isTwo same
      · rw [isLink] at same ⊢
        exact owned one isOne same
    · rcases members.mp isTwo with ⟨_, isTwo⟩ | ⟨_, alsoLink⟩
      · rw [isLink] at same ⊢
        exact (owned two isTwo same.symm).symm
      · rw [isLink, alsoLink]
  rw [IgnitionApp.handleDriverLinkStatus]
  split
  · next fresh =>
    refine ⟨nodup, up, radio, fun _ => ⟨(mac, link), members.mpr (.inr ⟨rfl, rfl⟩), ?_, rfl⟩⟩
    rcases alone fresh with idle | current
    · simp [idle]
    · simp [current]
  · refine ⟨nodup, up, radio, fun current => ?_⟩
    obtain ⟨nbr, member, isMac, isIface⟩ := holds.current current
    refine ⟨nbr, members.mpr ?_, isMac, isIface⟩
    by_cases here : nbr.1 = mac
    · exact .inr ⟨here, stays _ ((find_eq_some_iff holds.nodup).mpr (here ▸ member))⟩
    · exact .inl ⟨here, member⟩

theorem setLinkUp (mac : String) : Attributed (app.handleSetLinkUpReq mac) lastUp := by
  rw [IgnitionApp.handleSetLinkUpReq]
  split
  · next idle =>
    refine ⟨holds.nodup, holds.up, holds.radio, fun current => ?_⟩
    obtain ⟨nbr, member, isMac, _⟩ := holds.current current
    exact absurd (isMac.trans idle.1) (holds.up nbr member).1
  · exact holds

theorem devDown (radioMac : String) : Attributed (app.processDevDown radioMac) lastUp := by
  rw [IgnitionApp.processDevDown]
  generalize app.ignitedNeighbors.filter _ = offlineNbrs
  induction offlineNbrs generalizing app with
  | nil => exact holds
  | cons nbr _ ih => exact ih (holds.linkDown nbr.1 nbr.2)

theorem exec {event : Event} (orderly : Orderly app event) (order : SetOrder)
    (wsecEnable : Int) : Attributed (app.exec order wsecEnable event).1 (event.record lastUp) := by
  cases event with
  | setLinkUp mac => exact holds.setLinkUp mac
  | linkStatus status mac link =>
    cases status with
    | linkUp => exact holds.linkUp orderly
    | linkDown => exact holds.linkDown mac link
    | linkPause => exact holds
  | wsecStatus =>
    simp only [IgnitionApp.exec, IgnitionApp.processDriverWsecStatus]
    split
    · exact holds.reset
    · exact holds
  | wsecLinkupStatus =>
    simp only [IgnitionApp.exec, IgnitionApp.processDriverWsecLinkupStatus]
    split
    · exact holds
    · split
      · exact holds.reset
      · exact holds
  | devDown radioMac => exact holds.devDown radioMac
  | ignitionTimeout => exact holds.reset

theorem authorizedMac {link : LinkUp} (named : link.ifname ≠ "")
    (orderly : Orderly app (.wsecLinkupStatus link)) (order : SetOrder) :
    (app.authorizedMac order link, link) ∈ app.ignitedNeighbors := by
  obtain ⟨other, isOther, isLink⟩ := orderly
  rw [IgnitionApp.authorizedMac]
  split
  · next same =>
    obtain ⟨nbr, member, isMac, isIface⟩ := holds.current (same ▸ named)
    have sameLink := holds.radio nbr member other isOther (by rw [isIface, same, isLink])
    rw [← isMac, ← isLink, ← sameLink]
    exact member
  · have listed : other.1 ∈ app.neighborsOn order link := by
      simp only [IgnitionApp.neighborsOn, mem_filter, order.mem_toList, mem_toFinset,
        decide_eq_true_eq]
      exact ⟨mem_map_of_mem isOther, (find_eq_some_iff holds.nodup).mpr (isLink ▸ isOther)⟩
    rw [getLastD_eq_getLast?, getLast?_eq_some_getLast (ne_nil_of_mem listed), Option.getD_some]
    have isLast := mem_filter.mp (getLast_mem (ne_nil_of_mem listed))
    exact mem_of_find (of_decide_eq_true isLast.2)

end

end Attributed

/-- In runs of orderly events, a link is authorized for a neighbour whose last `LINK_UP` came from
the same radio on the same interface. -/
theorem authorized_neighbor_was_up {wsecEnable : Int} {s : IgnitionApp × (String → Option LinkUp)}
    (reached : Reaches (· = ({}, fun _ => none))
      (fun s event s' => ∃ order, s' = ((s.1.exec order wsecEnable event).1, event.record s.2))
      (fun s event => Orderly s.1 event) s)
    {event : Event} (orderly : Orderly s.1 event) {order : SetOrder} {sent : LinkAuthorized}
    (isSent : sent ∈ (s.1.exec order wsecEnable event).2) (encrypted : sent.wsecEnable ≠ 0) :
    sent.responderMac ≠ "" ∧ event.record s.2 sent.responderMac = some sent.link := by
  have holds : Attributed s.1 s.2 := by
    refine reached.invariant (fun s => Attributed s.1 s.2) ?_ ?_
    · rintro _ rfl
      exact ⟨nodup_nil, by simp, by simp, by simp⟩
    · rintro s _ _ holds orderly ⟨order, rfl⟩
      exact holds.exec orderly order wsecEnable
  cases event with
  | wsecLinkupStatus =>
    rw [IgnitionApp.exec, IgnitionApp.processDriverWsecLinkupStatus] at isSent
    split at isSent
    · cases isSent
    · next named =>
      cases mem_singleton.mp isSent
      exact holds.up _ (holds.authorizedMac named orderly order)
  | wsecStatus =>
    simp only [IgnitionApp.exec, IgnitionApp.processDriverWsecStatus, Option.mem_toList,
      Option.map_eq_some_iff] at isSent
    obtain ⟨_, _, rfl⟩ := isSent
    exact absurd rfl encrypted
  | setLinkUp | linkStatus | devDown | ignitionTimeout => cases isSent

/-- The only neighbor comes up and is authorized. -/
theorem lone_neighbor_was_up :
    Event.record (fun _ => none) (.linkStatus .linkUp "a" ⟨"r", "terra0"⟩) "a" =
      some ⟨"r", "terra0"⟩ := by
  have orderly : Orderly {} (.linkStatus .linkUp "a" ⟨"r", "terra0"⟩) :=
    ⟨by decide, by simp [find], by simp, by simp⟩
  exact (@authorized_neighbor_was_up 1 _ (.step (.start rfl) orderly ⟨.sorted, rfl⟩)
    (.wsecLinkupStatus ⟨"r", "terra0"⟩) ⟨_, mem_singleton.mpr rfl, rfl⟩ .sorted
    ⟨"a", ⟨"r", "terra0"⟩, 1⟩ (mem_singleton.mpr rfl) (by decide)).2

/-- While `a` is ignited `b` comes up, and `a` is authorized on the interface of `b`. -/
theorem wrong_neighbor_authorized :
    let app := ((({} : IgnitionApp).exec .sorted 1 (.setLinkUp "a")).1.exec .sorted 1
      (.linkStatus .linkUp "b" ⟨"r", "terra0"⟩)).1
    ∃ sent, (app.exec .sorted 1 (.wsecLinkupStatus ⟨"r", "terra0"⟩)).2 = [sent] ∧ sent.wsecEnable = 1 ∧
      sent.responderMac = "a" ∧ (Event.linkStatus .linkUp "b" ⟨"r", "terra0"⟩).record
        (fun _ => none) "a" = none :=
  ⟨_, rfl, rfl, by decide, by decide⟩

end Terragraph.Minion
