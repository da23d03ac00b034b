/-
Module: Terragraph.HighAvailability.BinaryStar
Purpose: One controller of a pair (`BinaryStarFsm.cpp`, `BinaryStarApp.cpp` and `Broker.cpp`) with
  the two copies of the machine in it, and a primary and a backup that exchange heartbeats over
  lossy FIFO channels.
Trusted boundary: human-reviewed embedding of the C++ source and model of the message queues and
  channels
Main exports: BinaryStarFsmState, copies_agree, Side, never_both_active
-/
import Terragraph.Lib.Transition
import Terragraph.Topology.Wrapper

namespace Terragraph

/-!
The clock is an argument of every function that reads it.  Counters are unbounded.  Log lines and
events are left out; what is sent to another process is a result.
-/

/-! ### The finite state machine -/

/-- `enum BinaryStarFsmState`. -/
inductive BinaryStarFsmState where
  | PRIMARY
  | BACKUP
  | ACTIVE
  | PASSIVE
deriving DecidableEq, Repr, Inhabited

/-- `enum BinaryStarFsmEvent`. -/
inductive BinaryStarFsmEvent where
  | PEER_PRIMARY
  | PEER_BACKUP
  | PEER_ACTIVE
  | PEER_PASSIVE
  | CLIENT_REQUEST
deriving DecidableEq, Repr, Inhabited

/-- `static_cast<BinaryStarFsmEvent>(state)`: the first four events are the states of the peer. -/
def BinaryStarFsmState.toEvent : BinaryStarFsmState → BinaryStarFsmEvent
  | .PRIMARY => .PEER_PRIMARY
  | .BACKUP => .PEER_BACKUP
  | .ACTIVE => .PEER_ACTIVE
  | .PASSIVE => .PEER_PASSIVE

/-- `struct BinaryStar`. -/
structure BinaryStar where
  state : BinaryStarFsmState
  peerExpiry : Int := 0
deriving DecidableEq, Repr, Inhabited

def BinaryStar.failover (fsm : BinaryStar) (now : Int) : Except String BinaryStar :=
  if now ≥ fsm.peerExpiry then .ok { fsm with state := .ACTIVE } else .error "Peer is alive"

/-- `BinaryStarFsm::processEvent`. -/
def processEvent (now : Int) (fsm : BinaryStar) (event : BinaryStarFsmEvent) :
    Except String BinaryStar :=
  match fsm.state with
  | .PRIMARY =>
    match event with
    | .PEER_BACKUP => .ok { fsm with state := .ACTIVE }
    | .PEER_PASSIVE => .ok { fsm with state := .ACTIVE }
    | .PEER_ACTIVE => .ok { fsm with state := .PASSIVE }
    | .PEER_PRIMARY => .error "FATAL: Dual-Primary"
    | .CLIENT_REQUEST => .ok fsm
  | .BACKUP =>
    match event with
    | .PEER_ACTIVE => .ok { fsm with state := .PASSIVE }
    | .PEER_BACKUP => .error "FATAL: Dual-Backup"
    | .CLIENT_REQUEST => fsm.failover now
    | .PEER_PRIMARY => .ok fsm
    | .PEER_PASSIVE => .ok fsm
  | .ACTIVE =>
    match event with
    | .PEER_ACTIVE => .error "FATAL: Split-Brain (Dual-Active)"
    | _ => .ok fsm
  | .PASSIVE =>
    match event with
    | .PEER_BACKUP => .ok { fsm with state := .ACTIVE }
    | .PEER_PASSIVE => .error "FATAL: Dual-Passive"
    | .CLIENT_REQUEST => fsm.failover now
    | .PEER_PRIMARY => .ok fsm
    | .PEER_ACTIVE => .ok fsm

/-! ### Synchronized data -/

/-- `struct BinaryStarAppData`. -/
structure BinaryStarAppData where
  topology : Option Topology := none
  configNetworkOverrides : Option String := none
  configNodeOverrides : Option String := none
  configAutoNodeOverrides : Option String := none
  configController : Option String := none

namespace BinaryStarAppData

def hasConfig (data : BinaryStarAppData) : Bool :=
  data.configNetworkOverrides.isSome || data.configNodeOverrides.isSome ||
    data.configAutoNodeOverrides.isSome || data.configController.isSome

def isEmpty (data : BinaryStarAppData) : Bool := !(data.topology.isSome || data.hasConfig)

end BinaryStarAppData

/-- The setters of `SyncedAppData`. -/
inductive AppDataUpdate where
  | topology (topology : Topology)
  | networkOverrides (configNetworkOverrides : String)
  | nodeOverrides (configNodeOverrides : String)
  | autoNodeOverrides (configAutoNodeOverrides : String)
  | controllerConfig (configController : String)

/-- Write one field. -/
def AppDataUpdate.apply (update : AppDataUpdate) (data : BinaryStarAppData) : BinaryStarAppData :=
  match update with
  | .topology newTopology => { data with topology := some newTopology }
  | .networkOverrides overrides => { data with configNetworkOverrides := some overrides }
  | .nodeOverrides overrides => { data with configNodeOverrides := some overrides }
  | .autoNodeOverrides overrides => { data with configAutoNodeOverrides := some overrides }
  | .controllerConfig config => { data with configController := some config }

/-- `struct BinaryStarApp::SyncedAppData`. -/
structure SyncedAppData where
  fullAppData : BinaryStarAppData := {}
  unsyncedAppData : BinaryStarAppData := {}

def SyncedAppData.set (synced : SyncedAppData) (update : AppDataUpdate) : SyncedAppData where
  fullAppData := update.apply synced.fullAppData
  unsyncedAppData := update.apply synced.unsyncedAppData

/-- `struct BinaryStarSync`: the heartbeat. -/
structure BinaryStarSync where
  state : BinaryStarFsmState
  seqNum : Nat
  data : BinaryStarAppData := {}
  version : String

/-! ### The app -/

/-- The flags of `BinaryStarApp.cpp`. -/
structure BstarFlags where
  heartbeatPeriodMs : Int := 10000
  failoverMissedHeartbeats : Int := 3
  primaryRecoveryHeartbeats : Int := 30

variable (flags : BstarFlags)

/-- `peerTimeoutMs`. -/
def BstarFlags.peerTimeoutMs : Int :=
  flags.heartbeatPeriodMs * flags.failoverMissedHeartbeats

/-- The members of `BinaryStarApp`, and the synchronized data that it shares with the other apps. -/
structure BinaryStarApp where
  isBstarPrimary : Bool
  version : String
  bstarFsm : BinaryStar
  seqNum : Nat := 0
  sendFullData : Bool := false
  lastHeartbeatTime : Int := 0
  autoRecoveryHeartbeats : Nat := 0
  syncedAppData : SyncedAppData := {}

/-- What the app sends to the broker, to the other apps and to the minions. -/
inductive BstarNotice where
  | brokerFsm (fsm : BinaryStar)
  | topologyAppData (data : BinaryStarAppData)
  | configAppData (data : BinaryStarAppData)
  | getAppData
  | switchController

def originalState (isBstarPrimary : Bool) : BinaryStarFsmState :=
  if isBstarPrimary then .PRIMARY else .BACKUP

namespace BinaryStarApp

/-- The constructor. -/
def start (isBstarPrimary : Bool) (version : String) : BinaryStarApp where
  isBstarPrimary := isBstarPrimary
  version := version
  bstarFsm := { state := originalState isBstarPrimary }

abbrev state (app : BinaryStarApp) : BinaryStarFsmState := app.bstarFsm.state

def withState (app : BinaryStarApp) (state : BinaryStarFsmState) : BinaryStarApp :=
  { app with bstarFsm := { app.bstarFsm with state } }

/-- `BinaryStarApp::clear`. -/
def clear (app : BinaryStarApp) : BinaryStarApp :=
  { app with
    seqNum := 0
    sendFullData := false
    lastHeartbeatTime := 0
    autoRecoveryHeartbeats := 0
    syncedAppData := {} }

/-- `BinaryStarApp::yieldToPrimary`.  The heartbeat that it schedules is sent like any other. -/
def yieldToPrimary (app : BinaryStarApp) : BinaryStarApp := app.clear.withState .BACKUP

end BinaryStarApp

def forwardAppData (data : BinaryStarAppData) : List BstarNotice :=
  (if data.topology.isSome then [.topologyAppData data] else []) ++
    (if data.hasConfig then [.configAppData data] else [])

/-- The part of `processBstarSync` for a passive controller. -/
def passiveActions (prevState : BinaryStarFsmState) (heartbeat : BinaryStarSync)
    (app : BinaryStarApp) : BinaryStarApp × List BstarNotice :=
  if app.state = .PASSIVE ∧ heartbeat.state = .ACTIVE then
    -- a controller that has just become passive keeps its number and ignores the data
    if prevState ≠ .PASSIVE then (app, [])
    else
      ({ app with seqNum := heartbeat.seqNum },
        if heartbeat.version = app.version then forwardAppData heartbeat.data else [])
  else (app, [])

/-- `doActiveStateChangeActions`. -/
def doActiveStateChangeActions (app : BinaryStarApp) : BinaryStarApp × List BstarNotice :=
  (app.clear, [.getAppData])

def checkSeqNum (heartbeat : BinaryStarSync) (app : BinaryStarApp) : BinaryStarApp :=
  { app with sendFullData := app.sendFullData || heartbeat.seqNum ≠ app.seqNum }

def countRecovery (now prevHeartbeatTime : Int) (app : BinaryStarApp) : Nat :=
  (if now - prevHeartbeatTime > flags.peerTimeoutMs then 0 else app.autoRecoveryHeartbeats) + 1

/-- The automatic recovery of the primary. -/
def checkRecovery (now prevHeartbeatTime : Int) (app : BinaryStarApp) :
    BinaryStarApp × List BstarNotice :=
  if app.isBstarPrimary = false ∧ flags.primaryRecoveryHeartbeats > 0 then
    let counted := { app with
      autoRecoveryHeartbeats := countRecovery flags now prevHeartbeatTime app }
    if (counted.autoRecoveryHeartbeats : Int) ≥ flags.primaryRecoveryHeartbeats then
      (counted.yieldToPrimary, [.switchController])
    else (counted, [])
  else (app, [])

/-- The part of `processBstarSync` for an active controller. -/
def activeActions (now prevHeartbeatTime : Int)
    (prevState : BinaryStarFsmState) (heartbeat : BinaryStarSync) (app : BinaryStarApp) :
    BinaryStarApp × List BstarNotice :=
  if app.state = .ACTIVE then
    if prevState ≠ .ACTIVE then doActiveStateChangeActions app
    else checkRecovery flags now prevHeartbeatTime (checkSeqNum heartbeat app)
  else (app, [])

/-- `BinaryStarApp::processBstarSync`, for a heartbeat that could be read. -/
def processBstarSync (now : Int) (app : BinaryStarApp)
    (heartbeat : BinaryStarSync) : BinaryStarApp × List BstarNotice :=
  match processEvent now app.bstarFsm heartbeat.state.toEvent with
  | .error _ =>
    -- the broker is not told
    (({ app with lastHeartbeatTime := now }).withState (originalState app.isBstarPrimary), [])
  | .ok fsm =>
    let stored := { app with
      lastHeartbeatTime := now
      bstarFsm := { fsm with peerExpiry := now + flags.peerTimeoutMs } }
    let passive := passiveActions app.state heartbeat stored
    let active := activeActions flags now app.lastHeartbeatTime app.state heartbeat passive.1
    (active.1, passive.2 ++ active.2 ++ [.brokerFsm active.1.bstarFsm])

/-- `BinaryStarApp::sendHeartbeat`. -/
def sendHeartbeat (app : BinaryStarApp) : BinaryStarApp × BinaryStarSync :=
  if app.state = .ACTIVE then
    let cleared : SyncedAppData := { app.syncedAppData with unsyncedAppData := {} }
    if app.sendFullData = false ∧ app.syncedAppData.unsyncedAppData.isEmpty = true then
      ({ app with syncedAppData := cleared, sendFullData := false },
        { state := app.state, seqNum := app.seqNum, version := app.version })
    else
      ({ app with syncedAppData := cleared, sendFullData := false, seqNum := app.seqNum + 1 },
        { state := app.state
          seqNum := app.seqNum + 1
          data := if app.sendFullData then app.syncedAppData.fullAppData
            else app.syncedAppData.unsyncedAppData
          version := app.version })
  else (app, { state := app.state, seqNum := app.seqNum, version := app.version })

/-- `BinaryStarApp::processBstarFsm`: the broker has changed the machine. -/
def processBstarFsm (app : BinaryStarApp) (fsm : BinaryStar) : BinaryStarApp × List BstarNotice :=
  let changed := if app.state ≠ fsm.state ∧ fsm.state = .ACTIVE
    then doActiveStateChangeActions app else (app, [])
  ({ changed.1 with bstarFsm := fsm }, changed.2)

def BinaryStarApp.setAppData (app : BinaryStarApp) (update : AppDataUpdate) : BinaryStarApp :=
  { app with syncedAppData := app.syncedAppData.set update }

/-! ### The broker -/

/-- The member of `Broker` that holds its copy of the machine. -/
structure Broker where
  bstarFsm : BinaryStar
deriving DecidableEq

/-- What the broker does with a message: its new state, the changed machine for `BinaryStarApp`, and
whether the message is forwarded. -/
structure ClientRequestResult where
  broker : Broker
  toApp : Option BinaryStar
  forwarded : Bool

/-- The handler of the minion socket. -/
def clientRequest (now : Int) (broker : Broker) : ClientRequestResult :=
  match processEvent now broker.bstarFsm .CLIENT_REQUEST with
  | .error _ => ⟨broker, none, false⟩
  | .ok fsm =>
    if fsm ≠ broker.bstarFsm then ⟨⟨fsm⟩, some fsm, true⟩ else ⟨broker, none, true⟩

/-- `Broker::processBstarFsm`. -/
def Broker.processBstarFsm (_broker : Broker) (fsm : BinaryStar) : Broker := ⟨fsm⟩

/-! ### How a heartbeat changes the state -/

/-- The state after a heartbeat with the given state of the peer, unless the backup yields. -/
def react (isBstarPrimary : Bool) : BinaryStarFsmState → BinaryStarFsmState → BinaryStarFsmState
  | .PRIMARY, .BACKUP => .ACTIVE
  | .PRIMARY, .PASSIVE => .ACTIVE
  | .PRIMARY, .ACTIVE => .PASSIVE
  | .PRIMARY, .PRIMARY => originalState isBstarPrimary
  | .BACKUP, .ACTIVE => .PASSIVE
  | .BACKUP, .BACKUP => originalState isBstarPrimary
  | .BACKUP, _ => .BACKUP
  | .ACTIVE, .ACTIVE => originalState isBstarPrimary
  | .ACTIVE, _ => .ACTIVE
  | .PASSIVE, .BACKUP => .ACTIVE
  | .PASSIVE, .PASSIVE => originalState isBstarPrimary
  | .PASSIVE, _ => .PASSIVE

/-- The backup leaves `ACTIVE` although the peer is not active. -/
structure Yields (isBstarPrimary : Bool) (before peer after : BinaryStarFsmState) : Prop where
  isBackup : isBstarPrimary = false
  wasActive : before = .ACTIVE
  peerInactive : peer ≠ .ACTIVE
  nowBackup : after = .BACKUP

variable (prevState : BinaryStarFsmState) (heartbeat : BinaryStarSync)

theorem passiveActions_fsm
    (app : BinaryStarApp) : (passiveActions prevState heartbeat app).1.bstarFsm = app.bstarFsm ∧
      (passiveActions prevState heartbeat app).1.isBstarPrimary = app.isBstarPrimary := by
  unfold passiveActions
  split
  · split
    · exact ⟨rfl, rfl⟩
    · exact ⟨rfl, rfl⟩
  · exact ⟨rfl, rfl⟩

theorem activeActions_state (now prevHeartbeatTime : Int)
    (prevState : BinaryStarFsmState) (heartbeat : BinaryStarSync) (app : BinaryStarApp) :
    (activeActions flags now prevHeartbeatTime prevState heartbeat app).1.state = app.state ∨
      (app.isBstarPrimary = false ∧ prevState = .ACTIVE ∧ app.state = .ACTIVE ∧
        (activeActions flags now prevHeartbeatTime prevState heartbeat app).1.state = .BACKUP) := by
  unfold activeActions
  split
  · next isActive =>
    split
    · exact .inl rfl
    · next wasActive =>
      unfold checkRecovery
      split
      · next recovers =>
        simp only
        split
        · exact .inr ⟨recovers.1, not_not.mp wasActive, isActive, rfl⟩
        · exact .inl rfl
      · exact .inl rfl
  · exact .inl rfl

variable {now : Int} {app : BinaryStarApp}

theorem processEvent_peer {peer : BinaryStarFsmState} {fsm : BinaryStar}
    (accepted : processEvent now app.bstarFsm peer.toEvent = .ok fsm) :
    fsm.state = react app.isBstarPrimary app.state peer ∧
      ¬ (app.state = .ACTIVE ∧ peer = .ACTIVE) := by
  unfold processEvent at accepted
  cases stateEq : app.bstarFsm.state with
  | _ =>
    cases peer with
    | _ =>
      rw [stateEq] at accepted
      simp only [BinaryStarFsmState.toEvent, reduceCtorEq, Except.ok.injEq] at accepted
      all_goals
        subst accepted
        simp [react, stateEq]

theorem processEvent_peer_error {peer : BinaryStarFsmState} {what : String}
    (rejected : processEvent now app.bstarFsm peer.toEvent = .error what) :
    originalState app.isBstarPrimary = react app.isBstarPrimary app.state peer := by
  unfold BinaryStarApp.state
  unfold processEvent at rejected
  cases stateEq : app.bstarFsm.state with
  | _ =>
    cases peer with
    | _ =>
      rw [stateEq] at rejected
      simp only [BinaryStarFsmState.toEvent, reduceCtorEq] at rejected
      all_goals rfl

/-- A heartbeat changes the state as `react` says, unless the backup yields. -/
theorem processBstarSync_state (now : Int) (app : BinaryStarApp) (heartbeat : BinaryStarSync) :
    (processBstarSync flags now app heartbeat).1.state =
        react app.isBstarPrimary app.state heartbeat.state ∨
      Yields app.isBstarPrimary app.state heartbeat.state
        (processBstarSync flags now app heartbeat).1.state := by
  unfold processBstarSync
  split
  · next rejected => exact .inl (processEvent_peer_error rejected)
  · next fsm accepted =>
    obtain ⟨reacted, notBothActive⟩ := processEvent_peer accepted
    obtain ⟨sameFsm, sameRole⟩ := passiveActions_fsm app.state heartbeat { app with
      lastHeartbeatTime := now
      bstarFsm := { fsm with peerExpiry := now + flags.peerTimeoutMs } }
    rcases activeActions_state flags now app.lastHeartbeatTime app.state heartbeat
        (passiveActions app.state heartbeat { app with
          lastHeartbeatTime := now
          bstarFsm := { fsm with peerExpiry := now + flags.peerTimeoutMs } }).1 with
      kept | ⟨isBackup, wasActive, _, yielded⟩
    · left
      exact kept.trans ((congrArg BinaryStar.state sameFsm).trans reacted)
    · right
      exact ⟨sameRole.symm.trans isBackup, wasActive,
        fun peerActive => notBothActive ⟨wasActive, peerActive⟩, yielded⟩

/-! ### What stays -/

theorem activeActions_role (now prevHeartbeatTime : Int)
    (prevState : BinaryStarFsmState) (heartbeat : BinaryStarSync) (app : BinaryStarApp) :
    (activeActions flags now prevHeartbeatTime prevState heartbeat app).1.isBstarPrimary =
      app.isBstarPrimary := by
  unfold activeActions checkRecovery
  dsimp only
  split_ifs
  all_goals rfl

theorem processBstarSync_role (now : Int) (app : BinaryStarApp) (heartbeat : BinaryStarSync) :
    (processBstarSync flags now app heartbeat).1.isBstarPrimary = app.isBstarPrimary := by
  unfold processBstarSync
  split
  · rfl
  · exact (activeActions_role _ _ _ _ _ _).trans (passiveActions_fsm _ _ _).2

variable (app : BinaryStarApp)

theorem sendHeartbeat_role : (sendHeartbeat app).1.isBstarPrimary = app.isBstarPrimary := by
  unfold sendHeartbeat
  split_ifs
  all_goals rfl

theorem sendHeartbeat_fsm : (sendHeartbeat app).1.bstarFsm = app.bstarFsm := by
  unfold sendHeartbeat
  split_ifs
  all_goals rfl

theorem sendHeartbeat_state : (sendHeartbeat app).2.state = app.state := by
  unfold sendHeartbeat
  split_ifs
  all_goals rfl

theorem processBstarFsm_role (fsm : BinaryStar) :
    (processBstarFsm app fsm).1.isBstarPrimary = app.isBstarPrimary := by
  unfold processBstarFsm
  split_ifs
  all_goals rfl

theorem processEvent_client {fsm fsm' : BinaryStar}
    (accepted : processEvent now fsm .CLIENT_REQUEST = .ok fsm') :
    fsm' = fsm ∨ ((fsm.state = .BACKUP ∨ fsm.state = .PASSIVE) ∧ now ≥ fsm.peerExpiry ∧
      fsm'.state = .ACTIVE) := by
  unfold processEvent BinaryStar.failover at accepted
  cases stateEq : fsm.state with
  | PRIMARY | ACTIVE =>
    rw [stateEq] at accepted
    cases accepted
    exact .inl rfl
  | BACKUP =>
    rw [stateEq] at accepted
    simp only at accepted
    split at accepted
    · next expired =>
      cases accepted
      exact .inr ⟨.inl rfl, expired, rfl⟩
    · cases accepted
  | PASSIVE =>
    rw [stateEq] at accepted
    simp only at accepted
    split at accepted
    · next expired =>
      cases accepted
      exact .inr ⟨.inr rfl, expired, rfl⟩
    · cases accepted

theorem clientRequest_cases (now : Int) (broker : Broker) :
    ((clientRequest now broker).toApp = none ∧ (clientRequest now broker).broker = broker) ∨
      ∃ fsm, (clientRequest now broker).toApp = some fsm ∧
        (clientRequest now broker).broker = ⟨fsm⟩ ∧
        (broker.bstarFsm.state = .BACKUP ∨ broker.bstarFsm.state = .PASSIVE) ∧
        now ≥ broker.bstarFsm.peerExpiry ∧ fsm.state = .ACTIVE := by
  unfold clientRequest
  split
  · exact .inl ⟨rfl, rfl⟩
  · next fsm accepted =>
    split
    · next changed =>
      right
      exact ⟨fsm, rfl, rfl, (processEvent_client accepted).resolve_left changed⟩
    · exact .inl ⟨rfl, rfl⟩

open List Option

/-! ### The two copies -/

/-- A controller's app and broker, with the `BSTAR_FSM` messages in flight, oldest first. -/
structure FsmCopies where
  app : BinaryStarApp
  broker : Broker
  toBroker : List BinaryStar := []
  toApp : List BinaryStar := []

/-- What can happen in a controller. -/
inductive CopyAction where
  | heartbeat (now : Int) (heartbeat : BinaryStarSync)
  | clientRequest (now : Int)
  | deliverToBroker
  | deliverToApp

/-- The messages for the broker among the app's. -/
def brokerMessages (notices : List BstarNotice) : List BinaryStar :=
  notices.filterMap fun
    | .brokerFsm fsm => some fsm
    | .topologyAppData _ | .configAppData _ | .getAppData | .switchController => none

variable (flags : BstarFlags)

/-- The effect of an action, if it is possible. -/
def execCopies : CopyAction → FsmCopies → Option FsmCopies
  | .heartbeat now heartbeat, copies =>
    let processed := processBstarSync flags now copies.app heartbeat
    some { copies with
      app := processed.1
      toBroker := copies.toBroker ++ brokerMessages processed.2 }
  | .clientRequest now, copies =>
    let requested := clientRequest now copies.broker
    some { copies with
      broker := requested.broker
      toApp := copies.toApp ++ requested.toApp.toList }
  | .deliverToBroker, copies =>
    match copies.toBroker with
    | [] => none
    | fsm :: rest =>
      some { copies with broker := copies.broker.processBstarFsm fsm, toBroker := rest }
  | .deliverToApp, copies =>
    match copies.toApp with
    | [] => none
    | fsm :: rest => some { copies with app := (processBstarFsm copies.app fsm).1, toApp := rest }

def FsmCopies.Starts (copies : FsmCopies) : Prop :=
  ∃ isBstarPrimary version, copies =
    { app := .start isBstarPrimary version, broker := ⟨{ state := originalState isBstarPrimary }⟩ }

def CopiesAgree (copies : FsmCopies) : Prop :=
  copies.toBroker = [] → copies.toApp = [] → copies.broker.bstarFsm.state = copies.app.state

/-- A heartbeat is handled while nothing is in flight towards the app, and is no fatal event; a
client request fails over while nothing is in flight towards the broker. -/
def OneSideAtATime (copies : FsmCopies) : CopyAction → Prop
  | .heartbeat _ heartbeat => copies.toApp = [] ∧
      (heartbeat.state = copies.app.state →
        copies.app.state = originalState copies.app.isBstarPrimary)
  | .clientRequest now =>
    (copies.broker.bstarFsm.state = .BACKUP ∨ copies.broker.bstarFsm.state = .PASSIVE) →
      now ≥ copies.broker.bstarFsm.peerExpiry → copies.toBroker = []
  | .deliverToBroker | .deliverToApp => True

instance (copies : FsmCopies) (action : CopyAction) : Decidable (OneSideAtATime copies action) :=
  match action with
  | .heartbeat _ _ => inferInstanceAs (Decidable (_ ∧ _))
  | .clientRequest _ => inferInstanceAs (Decidable (_ → _ → _))
  | .deliverToBroker | .deliverToApp => isTrue trivial

/-- The states of a controller that is reached by actions that meet a condition. -/
abbrev ReachesCopies (allowed : FsmCopies → CopyAction → Prop) : FsmCopies → Prop :=
  Transition.Reaches FsmCopies.Starts
    (fun copies action copies' => execCopies flags action copies = some copies') allowed

/-! ### What the app tells the broker -/

theorem brokerMessages_passive
    (app : BinaryStarApp) : brokerMessages (passiveActions prevState heartbeat app).2 = [] := by
  unfold passiveActions forwardAppData
  split_ifs
  all_goals rfl

theorem brokerMessages_active (now prevHeartbeatTime : Int)
    (prevState : BinaryStarFsmState) (heartbeat : BinaryStarSync) (app : BinaryStarApp) :
    brokerMessages (activeActions flags now prevHeartbeatTime prevState heartbeat app).2 = [] := by
  unfold activeActions checkRecovery
  dsimp only
  split_ifs
  all_goals rfl

theorem processEvent_error_iff (now : Int) (fsm : BinaryStar) (peer : BinaryStarFsmState) :
    (∃ what, processEvent now fsm peer.toEvent = .error what) ↔ peer = fsm.state := by
  unfold processEvent
  cases stateEq : fsm.state with
  | _ => cases peer with
    | _ => simp [BinaryStarFsmState.toEvent]

/-- The app tells the broker its machine, or reverts to its original state in silence. -/
theorem brokerMessages_processBstarSync (now : Int) (app : BinaryStarApp)
    (heartbeat : BinaryStarSync) :
    brokerMessages (processBstarSync flags now app heartbeat).2 =
        [(processBstarSync flags now app heartbeat).1.bstarFsm] ∨
      (heartbeat.state = app.state ∧
        brokerMessages (processBstarSync flags now app heartbeat).2 = [] ∧
        (processBstarSync flags now app heartbeat).1.bstarFsm =
          { app.bstarFsm with state := originalState app.isBstarPrimary }) := by
  unfold processBstarSync
  split
  · next what rejected =>
    right
    exact ⟨(processEvent_error_iff now app.bstarFsm heartbeat.state).mp ⟨what, rejected⟩, rfl, rfl⟩
  · left
    unfold brokerMessages
    rw [filterMap_append, filterMap_append]
    have passive := brokerMessages_passive
    have active := brokerMessages_active
    unfold brokerMessages at passive active
    rw [passive, active]
    rfl

/-! ### The copies agree -/

/-- One of the queues is empty, and the newest message in the other one is its sender's copy. -/
def FsmCopies.Tracked (copies : FsmCopies) : Prop :=
  (copies.toApp = [] ∧
      copies.toBroker.getLast?.getD copies.broker.bstarFsm = copies.app.bstarFsm) ∨
    (copies.toBroker = [] ∧
      copies.toApp.getLast?.getD copies.app.bstarFsm = copies.broker.bstarFsm)

section Tracked

variable {flags} {copies copies' : FsmCopies} {action : CopyAction}

theorem FsmCopies.Starts.tracked (starts : copies.Starts) : copies.Tracked := by
  obtain ⟨_, _, rfl⟩ := starts
  exact .inl ⟨rfl, rfl⟩

theorem FsmCopies.Tracked.app_newest (tracked : copies.Tracked) (quiet : copies.toApp = []) :
    copies.toBroker.getLast?.getD copies.broker.bstarFsm = copies.app.bstarFsm := by
  rcases tracked with ⟨_, newest⟩ | ⟨silent, newest⟩
  · exact newest
  · rw [silent]
    rw [quiet] at newest
    exact newest.symm

theorem FsmCopies.Tracked.step (tracked : copies.Tracked) (allowed : OneSideAtATime copies action)
    (ran : execCopies flags action copies = some copies') : copies'.Tracked := by
  cases action with
  | heartbeat now heartbeat =>
    cases ran
    obtain ⟨quiet, harmless⟩ := allowed
    left
    refine ⟨quiet, ?_⟩
    rcases brokerMessages_processBstarSync flags now copies.app heartbeat with
      told | ⟨fatal, silent, reverted⟩
    · rw [told, getLast?_concat]
      rfl
    · rw [silent, append_nil, reverted, ← harmless fatal]
      exact tracked.app_newest quiet
  | clientRequest now =>
    cases ran
    rcases clientRequest_cases now copies.broker with
      ⟨silent, same⟩ | ⟨fsm, told, changed, inactive, expired, _⟩
    · rw [silent, same, toList_none, append_nil]
      exact tracked
    · right
      refine ⟨allowed inactive expired, ?_⟩
      rw [told, changed, toList_some, getLast?_concat]
      rfl
  | deliverToBroker =>
    rw [execCopies] at ran
    split at ran
    · cases ran
    · next _ _ queued =>
      cases ran
      rcases tracked with ⟨quiet, newest⟩ | ⟨silent, _⟩
      · rw [queued, getLast?_cons] at newest
        exact .inl ⟨quiet, newest⟩
      · exact nomatch queued.symm.trans silent
  | deliverToApp =>
    rw [execCopies] at ran
    split at ran
    · cases ran
    · next _ _ queued =>
      cases ran
      rcases tracked with ⟨quiet, _⟩ | ⟨silent, newest⟩
      · exact nomatch queued.symm.trans quiet
      · rw [queued, getLast?_cons] at newest
        exact .inr ⟨silent, newest⟩

end Tracked

/-- The copies agree when nothing is in flight, if the sides take turns without fatal events. -/
theorem copies_agree (copies : FsmCopies)
    (reached : ReachesCopies flags OneSideAtATime copies) : CopiesAgree copies := by
  have tracked : copies.Tracked := by
    refine reached.invariant FsmCopies.Tracked (fun _ starts => starts.tracked) ?_
    intro _ _ _ tracked allowed ran
    exact tracked.step allowed ran
  intro silent quiet
  have newest := tracked.app_newest quiet
  rw [silent] at newest
  exact congrArg BinaryStar.state newest

def freshCopies (isBstarPrimary : Bool) : FsmCopies where
  app := .start isBstarPrimary "1.0"
  broker := ⟨{ state := originalState isBstarPrimary }⟩

theorem freshCopies_starts (isBstarPrimary : Bool) : (freshCopies isBstarPrimary).Starts :=
  ⟨isBstarPrimary, "1.0", rfl⟩

def heartbeatOf (state : BinaryStarFsmState) : BinaryStarSync := { state, seqNum := 0, version := "1.0" }

/-- The primary becomes active, tells the broker, and reverts on the peer's heartbeat. -/
def silentRevert : List CopyAction :=
  [.heartbeat 0 (heartbeatOf .BACKUP), .deliverToBroker, .heartbeat 0 (heartbeatOf .ACTIVE)]

def crossingMessages : List CopyAction :=
  [.clientRequest 0, .heartbeat 0 (heartbeatOf .PRIMARY), .deliverToBroker, .deliverToApp]

def FsmCopies.summary (copies : FsmCopies) : BinaryStarFsmState × BinaryStarFsmState × Nat :=
  (copies.app.state, copies.broker.bstarFsm.state, copies.toBroker.length + copies.toApp.length)

theorem exists_disagreeing (actions : List CopyAction) (isBstarPrimary : Bool)
    {appState brokerState : BinaryStarFsmState}
    (inspected : (Transition.replay (execCopies {}) actions (freshCopies isBstarPrimary)).map
      FsmCopies.summary = some (appState, brokerState, 0)) (differs : brokerState ≠ appState) :
    ∃ copies, ReachesCopies {} (fun _ _ => True) copies ∧
      copies.summary = (appState, brokerState, 0) ∧ ¬ CopiesAgree copies := by
  obtain ⟨copies, replayed, seen⟩ := map_eq_some_iff.mp inspected
  refine ⟨copies, (Transition.Reaches.start (freshCopies_starts _)).replay
    (Transition.permitted_of_unrestricted _ actions _) replayed, seen, fun agree => ?_⟩
  obtain ⟨isApp, isBroker, quiet⟩ := by
    simpa only [FsmCopies.summary, Prod.mk.injEq, Nat.add_eq_zero_iff, length_eq_zero_iff] using seen
  exact differs (isBroker.symm.trans ((agree quiet.1 quiet.2).trans isApp))

/-- A fatal event that the broker is not told of, and two messages that cross. -/
theorem copies_agree_fails : (∃ copies, ReachesCopies {} (fun _ _ => True) copies ∧
        copies.summary = (.PRIMARY, .ACTIVE, 0) ∧ ¬ CopiesAgree copies) ∧
      ∃ copies, ReachesCopies {} (fun _ _ => True) copies ∧
        copies.summary = (.ACTIVE, .BACKUP, 0) ∧ ¬ CopiesAgree copies := by
  constructor
  · exact exists_disagreeing silentRevert true (by decide) nofun
  · exact exists_disagreeing crossingMessages false (by decide) nofun

def failoverThenHeartbeat : List CopyAction :=
  [.heartbeat 0 (heartbeatOf .ACTIVE), .deliverToBroker, .clientRequest 40000, .deliverToApp,
    .heartbeat 50000 (heartbeatOf .PRIMARY), .deliverToBroker]

/-- A failover and a heartbeat, one after the other. -/
theorem copies_agree_after_failover :
    ∃ copies, ReachesCopies {} OneSideAtATime copies ∧ copies.summary = (.ACTIVE, .ACTIVE, 0) ∧
      CopiesAgree copies := by
  have inspected : (Transition.replay (execCopies {}) failoverThenHeartbeat
      (freshCopies false)).map FsmCopies.summary = some (.ACTIVE, .ACTIVE, 0) := by
    decide
  have permitted : Transition.Permitted (execCopies {}) OneSideAtATime failoverThenHeartbeat
      (freshCopies false) := by
    decide
  obtain ⟨copies, replayed, seen⟩ := map_eq_some_iff.mp inspected
  have reached := (Transition.Reaches.start (freshCopies_starts false)).replay permitted replayed
  exact ⟨copies, reached, seen, copies_agree {} copies reached⟩

open Function List Option

/-! ### The pair -/

/-- The fixed role of a controller. -/
inductive Side where
  | primary
  | backup
deriving DecidableEq, Repr

variable (side : Side)

namespace Side

def peer : Side → Side
  | .primary => .backup
  | .backup => .primary

/-- `isBstarPrimary`. -/
def isBstarPrimary : Side → Bool
  | .primary => true
  | .backup => false

@[simp] theorem peer_ne : side.peer ≠ side := by cases side <;> decide

theorem peer_peer : side.peer.peer = side := by cases side <;> rfl

theorem eq_peer_of_ne {side other : Side} (differs : other ≠ side) : other = side.peer := by
  cases side <;> cases other <;> first | rfl | exact absurd rfl differs

@[simp] theorem ne_peer : side ≠ side.peer := by cases side <;> decide

end Side

/-- A controller with one machine, and the heartbeats in flight towards it, oldest first. -/
structure Controller where
  app : BinaryStarApp
  running : Bool
  inbox : List BinaryStarSync

abbrev Pair := Side → Controller

/-- What can happen to a pair. -/
inductive PairAction where
  | heartbeat (side : Side)
  | deliver (side : Side) (now : Int)
  | lose (side : Side) (position : Nat)
  | crash (side : Side)
  | restart (side : Side) (version : String)
  | clientRequest (side : Side) (now : Int)
  | setAppData (side : Side) (update : AppDataUpdate)

/-- A client request on the single copy of the machine. -/
def requestApp (now : Int) (app : BinaryStarApp) : BinaryStarApp :=
  match (clientRequest now ⟨app.bstarFsm⟩).toApp with
  | none => app
  | some fsm => (processBstarFsm app fsm).1

def Pair.set (pair : Pair) (side : Side) (controller : Controller) : Pair :=
  update pair side controller

/-- The effect of an action, if it is possible. -/
def execPair (flags : BstarFlags) : PairAction → Pair → Option Pair
  | .heartbeat side, pair =>
    if (pair side).running then
      let sent := sendHeartbeat (pair side).app
      some ((pair.set side { pair side with app := sent.1 }).set side.peer
        { pair side.peer with inbox := (pair side.peer).inbox ++ [sent.2] })
    else none
  | .deliver side now, pair =>
    if (pair side).running then
      match (pair side).inbox with
      | [] => none
      | heartbeat :: rest =>
        some (pair.set side { pair side with
          app := (processBstarSync flags now (pair side).app heartbeat).1
          inbox := rest })
    else none
  | .lose side position, pair =>
    some (pair.set side { pair side with inbox := (pair side).inbox.eraseIdx position })
  | .crash side, pair => some (pair.set side { pair side with running := false })
  | .restart side version, pair =>
    -- what was in flight towards the controller is lost
    some (pair.set side ⟨.start side.isBstarPrimary version, true, []⟩)
  | .clientRequest side now, pair =>
    if (pair side).running then
      some (pair.set side { pair side with app := requestApp now (pair side).app })
    else none
  | .setAppData side update, pair =>
    if (pair side).running then
      some (pair.set side { pair side with app := (pair side).app.setAppData update })
    else none

/-! ### The states of the machines and of the heartbeats -/

/-- What the heartbeat protocol is about, for one controller. -/
structure SideView where
  state : BinaryStarFsmState
  running : Bool
  inbox : List BinaryStarFsmState
deriving DecidableEq

abbrev View := Side → SideView

/-- The abstraction of a controller. -/
def Controller.view (controller : Controller) : SideView where
  state := controller.app.state
  running := controller.running
  inbox := controller.inbox.map (·.state)

def Pair.view (pair : Pair) : View := fun side => (pair side).view

def View.set (v : View) (side : Side) (controller : SideView) : View :=
  update v side controller

@[simp] theorem View.set_self (v : View) (side : Side) (controller : SideView) :
    v.set side controller side = controller := update_self ..

@[simp] theorem View.set_peer_self (v : View) (side : Side) (controller : SideView) :
    v.set side.peer controller side = v side := update_of_ne side.ne_peer ..

/-- The protocol: what an action of the pair can do to the states. -/
inductive ViewStep (v : View) : PairAction → View → Prop where
  | send (side : Side) (up : (v side).running = true) :
      ViewStep v (.heartbeat side) (v.set side.peer
        { v side.peer with inbox := (v side.peer).inbox ++ [(v side).state] })
  | receive (side : Side) (now : Int) (peer next : BinaryStarFsmState)
      (rest : List BinaryStarFsmState) (up : (v side).running = true)
      (mail : (v side).inbox = peer :: rest)
      (moves : next = react side.isBstarPrimary (v side).state peer ∨
        Yields side.isBstarPrimary (v side).state peer next) :
      ViewStep v (.deliver side now) (v.set side { v side with state := next, inbox := rest })
  | lose (side : Side) (position : Nat) :
      ViewStep v (.lose side position)
        (v.set side { v side with inbox := (v side).inbox.eraseIdx position })
  | crash (side : Side) :
      ViewStep v (.crash side) (v.set side { v side with running := false })
  | restart (side : Side) (version : String) :
      ViewStep v (.restart side version) (v.set side ⟨originalState side.isBstarPrimary, true, []⟩)
  | failover (side : Side) (now : Int)
      (inactive : (v side).state = .BACKUP ∨ (v side).state = .PASSIVE) :
      ViewStep v (.clientRequest side now) (v.set side { v side with state := .ACTIVE })
  | noFailover (side : Side) (now : Int) : ViewStep v (.clientRequest side now) v
  | setAppData (side : Side) (update : AppDataUpdate) : ViewStep v (.setAppData side update) v

def Pair.InRole (pair : Pair) : Prop :=
  ∀ side, (pair side).app.isBstarPrimary = side.isBstarPrimary

/-! ### The pair simulates the protocol -/

section Simulation

variable {pair pair' : Pair} {flags} {action : PairAction}

variable (side : Side)

variable (controller : Controller)

theorem Pair.view_set : (pair.set side controller).view = pair.view.set side controller.view :=
  funext (apply_update (fun _ => Controller.view) pair side controller)

@[simp] theorem Pair.set_self :
    pair.set side controller side = controller := update_self ..

@[simp] theorem Pair.set_peer :
    pair.set side controller side.peer = pair side.peer := update_of_ne side.peer_ne ..

@[simp] theorem Pair.set_peer_self :
    pair.set side.peer controller side = pair side := update_of_ne side.ne_peer ..

variable {controller}

theorem Pair.view_set_same {side : Side}
    (same : controller.view = (pair side).view) : (pair.set side controller).view = pair.view := by
  rw [Pair.view_set, same]
  exact update_eq_self side pair.view

theorem requestApp_cases (now : Int) (app : BinaryStarApp) : requestApp now app = app ∨
      ((app.state = .BACKUP ∨ app.state = .PASSIVE) ∧ (requestApp now app).state = .ACTIVE ∧
        (requestApp now app).isBstarPrimary = app.isBstarPrimary) := by
  unfold requestApp
  rcases clientRequest_cases now ⟨app.bstarFsm⟩ with ⟨silent, _⟩ | ⟨fsm, told, _, inactive, _, active⟩
  · left
    rw [silent]
  · right
    rw [told]
    exact ⟨inactive, active, processBstarFsm_role app fsm⟩

theorem execPair_view (inRole : pair.InRole) (run : execPair flags action pair = some pair') :
    ViewStep pair.view action pair'.view := by
  cases action with
  | heartbeat side =>
    obtain ⟨up, sent⟩ := ite_none_right_eq_some.mp run
    cases sent
    have sameState := congrArg BinaryStar.state (sendHeartbeat_fsm (pair side).app)
    have sameView : Controller.view { pair side with app := (sendHeartbeat (pair side).app).1 } =
        (pair side).view := by
      rw [Controller.view, BinaryStarApp.state, sameState]
      rfl
    have queued : Controller.view { pair side.peer with
        inbox := (pair side.peer).inbox ++ [(sendHeartbeat (pair side).app).2] } =
        { pair.view side.peer with
          inbox := (pair.view side.peer).inbox ++ [(pair.view side).state] } := by
      rw [Controller.view, map_append, map_singleton, sendHeartbeat_state]
      rfl
    rw [Pair.view_set, Pair.view_set_same sameView, queued]
    exact .send side up
  | deliver side now =>
    obtain ⟨up, delivered⟩ := ite_none_right_eq_some.mp run
    split at delivered
    · cases delivered
    · next heartbeat rest mail =>
      cases delivered
      rw [Pair.view_set]
      have moves := processBstarSync_state flags now (pair side).app heartbeat
      rw [inRole side] at moves
      have states : (pair.view side).inbox = heartbeat.state :: rest.map (·.state) :=
        congrArg (map BinaryStarSync.state) mail
      have received := ViewStep.receive (v := pair.view) side now heartbeat.state
        (processBstarSync flags now (pair side).app heartbeat).1.state
        (rest.map (·.state)) up states moves
      exact received
  | lose side position =>
    cases run
    have erased : Controller.view { pair side with
        inbox := (pair side).inbox.eraseIdx position } =
        { pair.view side with inbox := (pair.view side).inbox.eraseIdx position } := by
      exact congrArg (SideView.mk _ _) (eraseIdx_map _ _ _).symm
    rw [Pair.view_set, erased]
    exact .lose side position
  | crash side =>
    cases run
    rw [Pair.view_set]
    exact .crash side
  | restart side version =>
    cases run
    rw [Pair.view_set]
    exact .restart side version
  | clientRequest side now =>
    obtain ⟨_, requested⟩ := ite_none_right_eq_some.mp run
    cases requested
    rcases requestApp_cases now (pair side).app with same | ⟨inactive, active, _⟩
    · have unchanged : Controller.view { pair side with
          app := requestApp now (pair side).app } = (pair side).view := by
        rw [same]
      rw [Pair.view_set_same unchanged]
      exact .noFailover side now
    · have failed : Controller.view { pair side with
          app := requestApp now (pair side).app } = { pair.view side with state := .ACTIVE } := by
        rw [Controller.view, active]
        rfl
      rw [Pair.view_set, failed]
      exact .failover side now inactive
  | setAppData side update =>
    obtain ⟨_, updated⟩ := ite_none_right_eq_some.mp run
    cases updated
    have unchanged : Controller.view { pair side with
        app := (pair side).app.setAppData update } = (pair side).view := rfl
    rw [Pair.view_set_same unchanged]
    exact .setAppData side update

theorem Pair.InRole.set (inRole : pair.InRole) {side : Side}
    (role : controller.app.isBstarPrimary = side.isBstarPrimary) :
    (pair.set side controller).InRole := by
  intro other
  unfold Pair.set
  by_cases same : other = side
  · subst same
    rw [update_self]
    exact role
  · rw [update_of_ne same]
    exact inRole other

theorem execPair_inRole (inRole : pair.InRole) (run : execPair flags action pair = some pair') :
    pair'.InRole := by
  cases action with
  | heartbeat side =>
    obtain ⟨_, sent⟩ := ite_none_right_eq_some.mp run
    cases sent
    have sender : (pair.set side { pair side with
        app := (sendHeartbeat (pair side).app).1 }).InRole :=
      inRole.set ((sendHeartbeat_role _).trans (inRole side))
    exact sender.set (inRole side.peer)
  | deliver side =>
    obtain ⟨_, delivered⟩ := ite_none_right_eq_some.mp run
    split at delivered
    · cases delivered
    · cases delivered
      exact inRole.set ((processBstarSync_role _ _ _ _).trans (inRole side))
  | lose side position | crash side =>
    cases run
    exact inRole.set (inRole side)
  | restart =>
    cases run
    exact inRole.set rfl
  | clientRequest side now =>
    obtain ⟨_, requested⟩ := ite_none_right_eq_some.mp run
    cases requested
    apply inRole.set
    rcases requestApp_cases now (pair side).app with same | ⟨_, _, role⟩
    · exact (congrArg _ same).trans (inRole side)
    · exact role.trans (inRole side)
  | setAppData side =>
    obtain ⟨_, updated⟩ := ite_none_right_eq_some.mp run
    cases updated
    exact inRole.set (inRole side)

end Simulation

/-! ### Roles -/

/-- Neither side is ever in, or reports, the original state of the other. -/
structure View.Roles (v : View) : Prop where
  state : ∀ side, (v side).state ≠ originalState side.peer.isBstarPrimary
  mail : ∀ side, ∀ state ∈ (v side).inbox, state ≠ originalState side.isBstarPrimary

variable {before peer after : BinaryStarFsmState}

section Roles

variable {v v' : View} {action : PairAction} {side}

/-- What a heartbeat can do to the state: `react`, or the backup yields. -/
def Moves (side : Side) (before peer after : BinaryStarFsmState) : Prop :=
  after = react side.isBstarPrimary before peer ∨ Yields side.isBstarPrimary before peer after

theorem View.Roles.moves
    (own : before ≠ originalState side.peer.isBstarPrimary) (moves : Moves side before peer after) :
    after ≠ originalState side.peer.isBstarPrimary := by
  rcases moves with rfl | yields
  · revert own
    cases side <;> cases before <;> cases peer <;> decide
  · rw [yields.nowBackup]
    cases side with
    | primary => cases yields.isBackup
    | backup => decide

theorem View.Roles.set (roles : v.Roles) {controller : SideView}
    (state : controller.state ≠ originalState side.peer.isBstarPrimary)
    (mail : ∀ state ∈ controller.inbox, state ≠ originalState side.isBstarPrimary) :
    (v.set side controller).Roles := by
  refine ⟨fun other => ?_, fun other => ?_⟩
  · by_cases same : other = side
    · subst same
      rw [View.set_self]
      exact state
    · rw [View.set, update_of_ne same]
      exact roles.state other
  · by_cases same : other = side
    · subst same
      rw [View.set_self]
      exact mail
    · rw [View.set, update_of_ne same]
      exact roles.mail other

theorem View.Roles.step (roles : v.Roles) (step : ViewStep v action v') : v'.Roles := by
  cases step with
  | send side =>
    refine roles.set ?_ ?_
    · exact roles.state side.peer
    have sent : (v side).state ≠ originalState side.peer.isBstarPrimary := roles.state side
    exact forall_mem_append.mpr ⟨roles.mail side.peer, forall_mem_singleton.mpr sent⟩
  | receive side _ _ _ _ _ mail moves =>
    have queued := roles.mail side
    rw [mail] at queued
    exact roles.set (View.Roles.moves (roles.state side) moves) (forall_mem_cons.mp queued).2
  | lose side =>
    refine roles.set ?_ ?_
    · exact roles.state side
    exact fun state left => roles.mail side state (mem_of_mem_eraseIdx left)
  | crash side => exact roles.set (roles.state side) (roles.mail side)
  | restart side =>
    apply roles.set _ (forall_mem_nil _)
    cases side <;> decide
  | failover side =>
    have active : BinaryStarFsmState.ACTIVE ≠ originalState side.peer.isBstarPrimary := by
      cases side <;> decide
    refine roles.set ?_ ?_
    · exact active
    exact roles.mail side
  | noFailover side now | setAppData side update => exact roles

end Roles

/-! ### No split brain -/

/-- A backup is made active by a client request alone, while the primary is down; when the primary
is back it has no older heartbeat in flight, and the backup sends nothing but `ACTIVE`. -/
def View.Apart (v : View) : Prop :=
  (v .primary).running = true → (v .backup).running = true → (v .backup).state = .ACTIVE →
    (v .primary).state ≠ .ACTIVE ∧ ∀ state ∈ (v .primary).inbox, state = .ACTIVE

def View.FailsOverAlone (v : View) (action : PairAction) (v' : View) : Prop :=
  ∀ side now, action = .clientRequest side now → (v side).state ≠ (v' side).state →
    (v side.peer).running = false

section Apart

variable {v v' : View} {action : PairAction}

/-- The backup becomes active by a `BACKUP` heartbeat only, which the primary never sends. -/
theorem Moves.backup_active (own : before ≠ .PRIMARY)
    (fromPrimary : peer ≠ .BACKUP) (moves : Moves .backup before peer after)
    (active : after = .ACTIVE) : before = .ACTIVE := by
  rcases moves with rfl | yields
  · revert own fromPrimary active
    cases before <;> cases peer <;> decide
  · rw [yields.nowBackup] at active
    cases active

theorem Moves.hears_active {side : Side} {before after : BinaryStarFsmState}
    (moves : Moves side before .ACTIVE after) : after ≠ .ACTIVE := by
  rcases moves with rfl | yields
  · cases side <;> cases before <;> decide
  · exact absurd rfl yields.peerInactive

theorem View.Apart.step (invariant : v.Apart) (roles : v.Roles) (step : ViewStep v action v')
    (alone : v.FailsOverAlone action v') : v'.Apart := by
  cases step with
  | send side =>
    cases side with
    | primary => exact invariant
    | backup =>
      intro primaryUp backupUp active
      obtain ⟨notActive, mail⟩ := invariant primaryUp backupUp active
      refine ⟨notActive, forall_mem_append.mpr ⟨mail, ?_⟩⟩
      exact forall_mem_singleton.mpr active
  | receive side _ _ _ _ up mail moves =>
    cases side with
    | primary =>
      intro primaryUp backupUp active
      obtain ⟨_, allActive⟩ := invariant primaryUp backupUp active
      rw [mail] at allActive
      obtain ⟨rfl, restActive⟩ := forall_mem_cons.mp allActive
      exact ⟨Moves.hears_active moves, restActive⟩
    | backup =>
      have fromPrimary := roles.mail .backup
      rw [mail] at fromPrimary
      have notBackup := (forall_mem_cons.mp fromPrimary).1
      intro primaryUp _ active
      have wasActive := Moves.backup_active (roles.state .backup) notBackup moves active
      exact invariant primaryUp up wasActive
  | lose side =>
    cases side with
    | primary =>
      intro primaryUp backupUp active
      obtain ⟨notActive, mail⟩ := invariant primaryUp backupUp active
      exact ⟨notActive, fun state left => mail state (mem_of_mem_eraseIdx left)⟩
    | backup => exact invariant
  | crash side =>
    cases side with
    | primary => exact fun up => nomatch up
    | backup => exact fun _ up => nomatch up
  | restart side =>
    cases side with
    | primary => exact fun _ _ _ => ⟨nofun, forall_mem_nil _⟩
    | backup => exact fun _ _ active => nomatch active
  | failover side now inactive =>
    have peerDown : (v side.peer).running = false := by
      apply alone side now rfl
      rw [View.set_self]
      intro already
      rcases inactive with backup | passive
      · exact nomatch already.symm.trans backup
      · exact nomatch already.symm.trans passive
    cases side with
    | primary =>
      intro _ backupUp
      exact nomatch peerDown.symm.trans backupUp
    | backup =>
      intro primaryUp
      exact nomatch peerDown.symm.trans primaryUp
  | noFailover side now | setAppData side update => exact invariant

end Apart

def Pair.Fresh (pair : Pair) : Prop :=
  ∀ side, (∃ version, (pair side).app = .start side.isBstarPrimary version) ∧
    (pair side).inbox = []

/-- A client request fails over only while the peer process is down. -/
def FailoverOnlyWhilePeerDown (pair : Pair) : PairAction → Prop
  | .clientRequest side now =>
    (requestApp now (pair side).app).state ≠ (pair side).app.state →
      (pair side.peer).running = false
  | _ => True

instance (pair : Pair) (action : PairAction) :
    Decidable (FailoverOnlyWhilePeerDown pair action) :=
  match action with
  | .clientRequest _ _ => inferInstanceAs (Decidable (_ → _))
  | .heartbeat _ | .deliver _ _ | .lose _ _ | .crash _ | .restart _ _ | .setAppData _ _ =>
    isTrue trivial

abbrev ReachesPair (flags : BstarFlags) (allowed : Pair → PairAction → Prop) : Pair → Prop :=
  Transition.Reaches Pair.Fresh (fun pair action pair' => execPair flags action pair = some pair')
    allowed

variable {pair : Pair}

section

variable (fresh : pair.Fresh)
include fresh

theorem Pair.Fresh.inRole : pair.InRole := by
  intro side
  obtain ⟨⟨_, started⟩, _⟩ := fresh side
  rw [started]
  rfl

theorem Pair.Fresh.state :
    (pair.view side).state = originalState side.isBstarPrimary := by
  obtain ⟨⟨_, started⟩, _⟩ := fresh side
  exact congrArg BinaryStarApp.state started

theorem Pair.Fresh.roles : pair.view.Roles := by
  refine ⟨fun side => ?_, fun side => ?_⟩
  · rw [fresh.state]
    cases side <;> decide
  · have empty : (pair.view side).inbox = [] := congrArg (map BinaryStarSync.state) (fresh side).2
    rw [empty]
    exact forall_mem_nil _

theorem Pair.Fresh.apart : pair.view.Apart := by
  intro _ _ active
  rw [fresh.state] at active
  cases active

end

theorem failsOverAlone {flags : BstarFlags} {pair pair' : Pair} {action : PairAction}
    (run : execPair flags action pair = some pair')
    (allowed : FailoverOnlyWhilePeerDown pair action) :
    pair.view.FailsOverAlone action pair'.view := by
  rintro _ _ rfl changed
  obtain ⟨_, requested⟩ := ite_none_right_eq_some.mp run
  cases requested
  apply allowed
  rw [Pair.view_set, View.set_self] at changed
  exact Ne.symm changed

/-- The two controllers are never both active while both are running. -/
theorem never_both_active (flags : BstarFlags) (pair : Pair)
    (reached : ReachesPair flags FailoverOnlyWhilePeerDown pair) :
    ¬ ∀ side, (pair side).running = true ∧ (pair side).app.state = .ACTIVE := by
  have invariant : pair.InRole ∧ pair.view.Roles ∧ pair.view.Apart := by
    refine reached.invariant (fun pair => pair.InRole ∧ pair.view.Roles ∧ pair.view.Apart)
      (fun _ fresh => ⟨fresh.inRole, fresh.roles, fresh.apart⟩) ?_
    intro _ _ _ ⟨inRole, roles, apart⟩ allowed run
    have step := execPair_view inRole run
    exact ⟨execPair_inRole inRole run, roles.step step,
      apart.step roles step (failsOverAlone run allowed)⟩
  intro bothActive
  obtain ⟨primaryUp, primaryActive⟩ := bothActive .primary
  obtain ⟨backupUp, backupActive⟩ := bothActive .backup
  exact (invariant.2.2 primaryUp backupUp backupActive).1 primaryActive

def freshPair : Pair := fun side => ⟨.start side.isBstarPrimary "1.0", true, []⟩

/-- The primary becomes active and crashes, the backup takes over, and the primary comes back. -/
def takeover : List PairAction :=
  [.heartbeat .backup, .deliver .primary 10000, .heartbeat .primary, .deliver .backup 10000,
    .crash .primary, .clientRequest .backup 50000, .restart .primary "1.0", .heartbeat .backup,
    .deliver .primary 60000]

/-- The backup takes over a crashed primary, which comes back as the passive one. -/
theorem never_both_active_takeover : ∃ pair, ReachesPair {} FailoverOnlyWhilePeerDown pair ∧
      (pair .primary).view = ⟨.PASSIVE, true, []⟩ ∧ (pair .backup).view = ⟨.ACTIVE, true, []⟩ ∧
      ¬ ∀ side, (pair side).running = true ∧ (pair side).app.state = .ACTIVE := by
  have fresh : freshPair.Fresh := fun _ => ⟨⟨"1.0", rfl⟩, rfl⟩
  have permitted :
      Transition.Permitted (execPair {}) FailoverOnlyWhilePeerDown takeover freshPair := by
    decide
  have inspected : (Transition.replay (execPair {}) takeover freshPair).map
      (fun pair => ((pair .primary).view, (pair .backup).view)) =
        some (⟨.PASSIVE, true, []⟩, ⟨.ACTIVE, true, []⟩) := by
    decide
  obtain ⟨pair, replayed, views⟩ := map_eq_some_iff.mp inspected
  obtain ⟨primaryView, backupView⟩ := Prod.mk.inj views
  have reached := (Transition.Reaches.start fresh).replay permitted replayed
  exact ⟨pair, reached, primaryView, backupView, never_both_active {} pair reached⟩

end Terragraph
