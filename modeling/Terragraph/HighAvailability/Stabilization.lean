/-
Module: Terragraph.HighAvailability.Stabilization
Purpose: Two controllers whose heartbeats are all delivered settle on one active one, and sequence
  numbers acknowledge its data.
Trusted boundary: fairness, as stated by the fields of the run; the logs of what was sent and of
  what was handed to the apps are ghost state
Main exports: FairRun, stabilizes, SyncRun, acknowledged_data_is_applied
-/
import Terragraph.HighAvailability.BinaryStar
import Terragraph.Lib.Fifo

namespace Terragraph

section Fairness

open Filter Nat List Option

/-! ### Fair runs -/

/-- Heartbeats, deliveries and updates: no crash, no loss, no client request. -/
def PairAction.Calm : PairAction → Prop
  | .heartbeat _ | .deliver _ _ | .setAppData _ _ => True
  | .lose _ _ | .crash _ | .restart _ _ | .clientRequest _ _ => False

instance (action : PairAction) : Decidable action.Calm :=
  match action with
  | .heartbeat _ | .deliver _ _ | .setAppData _ _ => isTrue trivial
  | .lose _ _ | .crash _ | .restart _ _ | .clientRequest _ _ => isFalse id

def PairAction.Delivers (side : Side) : PairAction → Prop
  | .deliver target _ => target = side
  | _ => False

instance (side : Side) (action : PairAction) : Decidable (action.Delivers side) :=
  match action with
  | .deliver target _ => inferInstanceAs (Decidable (target = side))
  | .heartbeat _ | .lose _ _ | .crash _ | .restart _ _ | .clientRequest _ _ | .setAppData _ _ =>
    isFalse id

/-- An infinite run of two controllers that stay up, from any states of their roles and empty
channels, in which both keep sending and every channel is served. -/
structure FairRun (flags : BstarFlags) where
  pair : ℕ → Pair
  action : ℕ → PairAction
  step : ∀ n, execPair flags (action n) (pair n) = some (pair (n + 1))
  running : ∀ side, (pair 0 side).running = true
  inRole : (pair 0).InRole
  states : ∀ side, (pair 0 side).app.state ≠ originalState side.peer.isBstarPrimary
  empty : ∀ side, (pair 0 side).inbox = []
  calm : ∀ n, (action n).Calm
  heartbeats : ∀ side n, ∃ m ≥ n, action m = .heartbeat side
  served : ∀ side n, (pair n side).inbox ≠ [] → ∃ m ≥ n, (action m).Delivers side

/-! ### Calm steps of the protocol -/

/-- What a calm action can do to the states. -/
inductive CalmStep (v : View) : PairAction → View → Prop where
  | send (side : Side) : CalmStep v (.heartbeat side) (v.set side.peer
      { v side.peer with inbox := (v side.peer).inbox ++ [(v side).state] })
  | receive (side : Side) (now : Int) (peer next : BinaryStarFsmState)
      (rest : List BinaryStarFsmState) (mail : (v side).inbox = peer :: rest)
      (moves : Moves side (v side).state peer next) :
      CalmStep v (.deliver side now) (v.set side { v side with state := next, inbox := rest })
  | idle (side : Side) (update : AppDataUpdate) : CalmStep v (.setAppData side update) v

theorem ViewStep.calm {v v' : View} {action : PairAction} (step : ViewStep v action v')
    (calm : action.Calm) : CalmStep v action v' := by
  cases step with
  | send side => exact .send side
  | receive side now peer next rest _ mail moves =>
    exact .receive side now peer next rest mail moves
  | setAppData side update => exact .idle side update
  | lose side position | crash side | restart side version | failover side now inactive =>
    exact calm.elim
  | noFailover => exact calm.elim

variable {before next peer : BinaryStarFsmState}

section CalmStep

variable {v v' : View} {action : PairAction}

/-- A calm action reads the head of a queue, or adds the state of the peer to it. -/
theorem CalmStep.side_cases (step : CalmStep v action v') (side : Side) :
    (action.Delivers side ∧ ∃ peer, (v side).inbox = peer :: (v' side).inbox ∧
        Moves side (v side).state peer (v' side).state) ∨
      (¬ action.Delivers side ∧ (v' side).state = (v side).state ∧
        ∃ more, (v' side).inbox = (v side).inbox ++ more ∧
          ∀ state ∈ more, state = (v side.peer).state) := by
  cases step with
  | send sender =>
    right
    refine ⟨id, ?_⟩
    by_cases own : sender = side
    · subst own
      rw [View.set_peer_self]
      exact ⟨rfl, [], (append_nil _).symm, forall_mem_nil _⟩
    · obtain rfl := Side.eq_peer_of_ne own
      rw [Side.peer_peer, View.set_self]
      exact ⟨rfl, [_], rfl, forall_mem_singleton.mpr rfl⟩
  | receive receiver _ peer _ _ mail moves =>
    by_cases own : receiver = side
    · subst own
      left
      rw [View.set_self]
      exact ⟨rfl, peer, mail, moves⟩
    · right
      rw [View.set, Function.update_of_ne (Ne.symm own)]
      exact ⟨own, rfl, [], (append_nil _).symm, forall_mem_nil _⟩
  | idle =>
    right
    exact ⟨id, rfl, [], (append_nil _).symm, forall_mem_nil _⟩

theorem CalmStep.backup_inactive (step : CalmStep v action v') (roles : v.Roles)
    (inactive : (v .backup).state ≠ .ACTIVE) : (v' .backup).state ≠ .ACTIVE := by
  cases step with
  | send side => cases side <;> exact inactive
  | receive side _ _ _ _ mail moves =>
    cases side with
    | primary => exact inactive
    | backup =>
      have fromPrimary := roles.mail .backup
      rw [mail] at fromPrimary
      intro active
      exact inactive (moves.backup_active (roles.state .backup)
        (forall_mem_cons.mp fromPrimary).1 active)
  | idle => exact inactive

/-- The primary is active, and nothing in flight says otherwise. -/
structure View.PrimaryLeads (v : View) : Prop where
  active : (v .primary).state = .ACTIVE
  backup : (v .backup).state ≠ .ACTIVE
  mail : ∀ state ∈ (v .primary).inbox, state ≠ .ACTIVE

theorem Moves.primary_stays (moves : Moves .primary .ACTIVE peer next)
    (inactive : peer ≠ .ACTIVE) : next = .ACTIVE := by
  rcases moves with rfl | yields
  · revert inactive
    cases peer <;> decide
  · cases yields.isBackup

theorem View.PrimaryLeads.step (leads : v.PrimaryLeads) (roles : v.Roles)
    (step : CalmStep v action v') : v'.PrimaryLeads := by
  have backup := step.backup_inactive roles leads.backup
  cases step with
  | send side =>
    cases side with
    | primary => exact ⟨leads.active, backup, leads.mail⟩
    | backup =>
      refine ⟨leads.active, backup, forall_mem_append.mpr ⟨leads.mail, ?_⟩⟩
      exact forall_mem_singleton.mpr leads.backup
  | receive side _ _ _ _ mail moves =>
    cases side with
    | primary =>
      have queued := leads.mail
      rw [mail] at queued
      obtain ⟨inactive, left⟩ := forall_mem_cons.mp queued
      rw [leads.active] at moves
      exact ⟨moves.primary_stays inactive, backup, left⟩
    | backup => exact ⟨leads.active, backup, leads.mail⟩
  | idle => exact leads

/-- Entries that say `ACTIVE` come first. -/
def ActiveFirst (inbox : List BinaryStarFsmState) : Prop :=
  inbox.Pairwise fun before after => after = .ACTIVE → before = .ACTIVE

/-- As long as the backup is active, its heartbeats say so, and those of a primary that is not do
not. -/
structure View.BackupLeads (v : View) : Prop where
  active : (v .backup).state = .ACTIVE
  mail : ∀ state ∈ (v .primary).inbox, state = .ACTIVE
  ordered : ActiveFirst (v .backup).inbox
  both : (v .primary).state = .ACTIVE → ∀ state ∈ (v .backup).inbox, state = .ACTIVE

theorem ActiveFirst.append {inbox : List BinaryStarFsmState} {state : BinaryStarFsmState}
    (ordered : ActiveFirst inbox) (fits : state = .ACTIVE → ∀ before ∈ inbox, before = .ACTIVE) :
    ActiveFirst (inbox ++ [state]) := by
  refine pairwise_append.mpr ⟨ordered, pairwise_singleton _ _, ?_⟩
  intro before queued _ new isActive
  rw [mem_singleton.mp new] at isActive
  exact fits isActive before queued

theorem ActiveFirst.rest {rest : List BinaryStarFsmState} (ordered : ActiveFirst (peer :: rest))
    (inactive : peer ≠ .ACTIVE) :
    ∀ state ∈ rest, state ≠ .ACTIVE :=
  fun state queued active => inactive ((pairwise_cons.mp ordered).1 state queued active)

theorem View.BackupLeads.step (leads : v.BackupLeads) (step : CalmStep v action v')
    (active : (v' .backup).state = .ACTIVE) : v'.BackupLeads := by
  cases step with
  | send side =>
    cases side with
    | primary =>
      refine ⟨active, leads.mail, leads.ordered.append leads.both, ?_⟩
      intro primaryActive
      refine forall_mem_append.mpr ⟨leads.both primaryActive, ?_⟩
      exact forall_mem_singleton.mpr primaryActive
    | backup =>
      refine ⟨active, forall_mem_append.mpr ⟨leads.mail, ?_⟩, leads.ordered, leads.both⟩
      exact forall_mem_singleton.mpr leads.active
  | receive side _ _ _ _ mail moves =>
    cases side with
    | primary =>
      have queued := leads.mail
      rw [mail] at queued
      obtain ⟨rfl, left⟩ := forall_mem_cons.mp queued
      exact ⟨active, left, leads.ordered, fun primaryActive => absurd primaryActive moves.hears_active⟩
    | backup =>
      have ordered := leads.ordered
      have both := leads.both
      rw [mail] at ordered both
      refine ⟨active, leads.mail, (pairwise_cons.mp ordered).2, ?_⟩
      intro primaryActive
      exact (forall_mem_cons.mp (both primaryActive)).2
  | idle => exact leads

/-- The backup has yielded, and the primary has not noticed yet. -/
structure View.HandsOver (v : View) : Prop where
  yielded : (v .backup).state = .BACKUP
  primary : (v .primary).state ≠ .ACTIVE
  backupMail : ∀ state ∈ (v .backup).inbox, state ≠ .ACTIVE
  primaryMail : ∀ state ∈ (v .primary).inbox, state = .ACTIVE ∨ state = .BACKUP
  ordered : ActiveFirst (v .primary).inbox

theorem Moves.backup_waits (moves : Moves .backup .BACKUP peer next)
    (inactive : peer ≠ .ACTIVE) : next = .BACKUP := by
  rcases moves with rfl | yields
  · revert inactive
    cases peer <;> decide
  · exact nomatch yields.wasActive

theorem Moves.backup_follows
    (moves : Moves .backup before .ACTIVE next) (inactive : before ≠ .ACTIVE) :
    next = .PASSIVE := by
  rcases moves with rfl | yields
  · revert inactive
    cases before <;> decide
  · exact absurd rfl yields.peerInactive

theorem Moves.primary_takes (own : before ≠ .BACKUP)
    (moves : Moves .primary before .BACKUP next) : next = .ACTIVE := by
  rcases moves with rfl | yields
  · revert own
    cases before <;> decide
  · cases yields.isBackup

theorem View.HandsOver.step (handsOver : v.HandsOver) (roles : v.Roles)
    (step : CalmStep v action v') : v'.HandsOver ∨ v'.PrimaryLeads := by
  cases step with
  | send side =>
    left
    cases side with
    | primary =>
      refine { handsOver with backupMail := forall_mem_append.mpr ⟨handsOver.backupMail, ?_⟩ }
      exact forall_mem_singleton.mpr handsOver.primary
    | backup =>
      refine ⟨handsOver.yielded, handsOver.primary, handsOver.backupMail,
        forall_mem_append.mpr ⟨handsOver.primaryMail, ?_⟩, handsOver.ordered.append ?_⟩
      · exact forall_mem_singleton.mpr (.inr handsOver.yielded)
      · exact fun active => nomatch handsOver.yielded.symm.trans active
  | receive side _ _ _ _ mail moves =>
    cases side with
    | primary =>
      have queued := handsOver.primaryMail
      have ordered := handsOver.ordered
      rw [mail] at queued ordered
      obtain ⟨head, left⟩ := forall_mem_cons.mp queued
      have stillYielded : (v .backup).state ≠ .ACTIVE :=
        fun active => nomatch handsOver.yielded.symm.trans active
      rcases head with rfl | rfl
      · exact .inl ⟨handsOver.yielded, moves.hears_active, handsOver.backupMail, left,
          (pairwise_cons.mp ordered).2⟩
      · exact .inr ⟨moves.primary_takes (roles.state .primary), stillYielded, ordered.rest nofun⟩
    | backup =>
      have queued := handsOver.backupMail
      rw [mail] at queued
      obtain ⟨inactive, left⟩ := forall_mem_cons.mp queued
      rw [handsOver.yielded] at moves
      exact .inl { handsOver with yielded := moves.backup_waits inactive, backupMail := left }
  | idle => exact .inl handsOver

/-- An active backup that yields starts the hand-over: everything in flight towards the primary says
`ACTIVE`, and nothing towards the backup does. -/
theorem View.BackupLeads.handsOver (leads : v.BackupLeads) (step : CalmStep v action v')
    (inactive : ∀ peer ∈ (v .backup).inbox.head?, peer ≠ .ACTIVE)
    (yielded : (v' .backup).state = .BACKUP) : v'.HandsOver := by
  have moved : ¬ (v .backup).state = .BACKUP :=
    fun same => nomatch leads.active.symm.trans same
  cases step with
  | send side => cases side <;> exact absurd yielded moved
  | receive side _ peer _ _ mail =>
    cases side with
    | primary => exact absurd yielded moved
    | backup =>
      have ordered := leads.ordered
      have both := leads.both
      rw [mail] at inactive ordered both
      have peerInactive := inactive peer rfl
      refine ⟨yielded, ?_, ordered.rest peerInactive,
        fun state queued => .inl (leads.mail state queued), ?_⟩
      · exact fun active => peerInactive (both active peer mem_cons_self)
      · exact pairwise_of_forall_mem_list fun before queued _ _ _ =>
          leads.mail before queued
  | idle => exact absurd yielded moved

end CalmStep

/-! ### How far a controller is from its final state -/

/-- Heartbeats of an active peer until a controller is passive. -/
def BinaryStarFsmState.untilPassive : BinaryStarFsmState → Nat
  | .PASSIVE => 0
  | .PRIMARY | .BACKUP => 1
  | .ACTIVE => 2

/-- Heartbeats of a peer that is not active until the primary is active. -/
def BinaryStarFsmState.untilActive : BinaryStarFsmState → Nat
  | .ACTIVE => 0
  | .PRIMARY => 1
  | .BACKUP | .PASSIVE => 2

theorem Moves.lowers_untilPassive {side : Side} (moves : Moves side before .ACTIVE next) :
    next.untilPassive ≤ before.untilPassive - 1 := by
  rcases moves with rfl | yields
  · cases side <;> cases before <;> decide
  · exact absurd rfl yields.peerInactive

theorem Moves.lowers_untilActive {before : BinaryStarFsmState}
    (moves : Moves .primary before peer next) (own : before ≠ .BACKUP) (fromBackup : peer ≠ .PRIMARY)
    (inactive : peer ≠ .ACTIVE) : next.untilActive ≤ before.untilActive - 1 := by
  rcases moves with rfl | yields
  · revert own fromBackup inactive
    cases before <;> cases peer <;> decide
  · cases yields.isBackup

/-! ### Along a run -/

variable {n : ℕ}

namespace FairRun

variable {flags : BstarFlags} (run : FairRun flags)

def view (n : ℕ) : View := (run.pair n).view

def deliveries (side : Side) (n : ℕ) : ℕ := count (fun i => (run.action i).Delivers side) n

theorem inRole_at (n : ℕ) : (run.pair n).InRole := by
  induction n with
  | zero => exact run.inRole
  | succ n ih => exact execPair_inRole ih (run.step n)

theorem calmStep (n : ℕ) : CalmStep (run.view n) (run.action n) (run.view (n + 1)) :=
  (execPair_view (run.inRole_at n) (run.step n)).calm (run.calm n)

variable (side : Side)

theorem empty_view : (run.view 0 side).inbox = [] :=
  congrArg (List.map BinaryStarSync.state) (run.empty side)

theorem roles (n : ℕ) : (run.view n).Roles := by
  induction n with
  | zero =>
    refine ⟨run.states, fun _ => ?_⟩
    rw [run.empty_view]
    exact forall_mem_nil _
  | succ n ih =>
    exact ih.step (execPair_view (run.inRole_at n) (run.step n))

theorem often : ∃ᶠ n in atTop, (run.action n).Delivers side := by
  refine frequently_atTop.mpr fun n => ?_
  obtain ⟨m, later, sent⟩ := run.heartbeats side.peer n
  have queued : (run.pair (m + 1) side).inbox ≠ [] := by
    have ran := run.step m
    rw [sent] at ran
    obtain ⟨_, after⟩ := ite_none_right_eq_some.mp ran
    rw [← some.inj after, Side.peer_peer, Pair.set_self]
    exact append_ne_nil_of_right_ne_nil _ (cons_ne_nil _ _)
  obtain ⟨k, afterM, delivered⟩ := run.served side (m + 1) queued
  exact ⟨k, later.trans ((le_succ m).trans afterM), delivered⟩

variable {start : ℕ}

theorem delivered {side : Side} (delivers : (run.action n).Delivers side) :
    ∃ peer ∈ (run.view n side).inbox,
      (run.view n side).inbox = peer :: (run.view (n + 1) side).inbox ∧
      Moves side (run.view n side).state peer (run.view (n + 1) side).state := by
  rcases (run.calmStep n).side_cases side with ⟨_, peer, mail, moves⟩ | ⟨silent, _⟩
  · exact ⟨peer, mail ▸ mem_cons_self, mail, moves⟩
  · exact absurd delivers silent

variable (good : BinaryStarFsmState → Prop)

theorem fed (sends : ∀ n ≥ start, good (run.view n side.peer).state) :
    Fifo.Fed (fun n => (run.view n side).inbox) (fun n => (run.action n).Delivers side) good
      start := by
  refine ⟨fun n _ delivers => ?_, fun n later other => ?_⟩
  · obtain ⟨peer, _, mail, _⟩ := run.delivered delivers
    exact ⟨peer, mail⟩
  · rcases (run.calmStep n).side_cases side with ⟨delivered, _⟩ | ⟨_, _, more, grown, fromPeer⟩
    · exact absurd delivered other
    · refine ⟨more, grown, fun state added => ?_⟩
      rw [fromPeer state added]
      exact sends n later

theorem drained (sends : ∀ n ≥ start, good (run.view n side.peer).state) :
    ∃ m ≥ start, ∀ n ≥ m, ∀ state ∈ (run.view n side).inbox, good state := by
  obtain ⟨m, later, _, counted⟩ :=
    Fifo.exists_removal (run.often side) start (run.view start side).inbox.length
  refine ⟨m, later, fun n afterM => (run.fed side good sends).drained (later.trans afterM) ?_⟩
  rw [← counted]
  exact count_monotone _ afterM

theorem rank_settles (rank : BinaryStarFsmState → ℕ)
    (lowers : ∀ n ≥ start, ∀ peer next, peer ∈ (run.view n side).inbox →
      Moves side (run.view n side).state peer next → rank next ≤ rank (run.view n side).state - 1) :
    ∃ m ≥ start, ∀ n ≥ m, rank (run.view n side).state = 0 := by
  have read : ∀ n ≥ start, (run.action n).Delivers side →
      rank (run.view (n + 1) side).state ≤ rank (run.view n side).state - 1 := by
    intro n later delivers
    obtain ⟨peer, queued, _, moves⟩ := run.delivered delivers
    exact lowers n later peer _ queued moves
  apply Fifo.settles (run.often side)
  · intro n later
    by_cases delivered : (run.action n).Delivers side
    · exact (read n later delivered).trans (sub_le _ _)
    · rcases (run.calmStep n).side_cases side with ⟨delivers, _⟩ | ⟨_, same, _⟩
      · exact absurd delivers delivered
      · rw [same]
  · intro n later delivered positive
    exact (read n later delivered).trans_lt (sub_lt (pos_of_ne_zero positive) one_pos)

theorem settles_passive (hears : ∀ n ≥ start, ∀ state ∈ (run.view n side).inbox, state = .ACTIVE) :
    ∃ m ≥ start, ∀ n ≥ m, (run.view n side).state = .PASSIVE := by
  obtain ⟨m, later, zero⟩ := run.rank_settles side BinaryStarFsmState.untilPassive
    fun n later peer _ queued moves => by
      rw [hears n later peer queued] at moves
      exact moves.lowers_untilPassive
  refine ⟨m, later, fun n afterM => ?_⟩
  have isZero := zero n afterM
  revert isZero
  cases (run.view n side).state <;> decide

theorem settles_active (hears : ∀ n ≥ start, ∀ state ∈ (run.view n .primary).inbox, state ≠ .ACTIVE) :
    ∃ m ≥ start, ∀ n ≥ m, (run.view n .primary).state = .ACTIVE := by
  obtain ⟨m, later, zero⟩ := run.rank_settles .primary BinaryStarFsmState.untilActive
    fun n later peer _ queued moves =>
      moves.lowers_untilActive ((run.roles n).state .primary) ((run.roles n).mail .primary peer queued)
        (hears n later peer queued)
  refine ⟨m, later, fun n afterM => ?_⟩
  have isZero := zero n afterM
  revert isZero
  cases (run.view n .primary).state <;> decide

/-! ### Which controller wins -/

def Leads (side : Side) (n : ℕ) : Prop :=
  (run.pair n side).app.state = .ACTIVE ∧ (run.pair n side.peer).app.state = .PASSIVE

theorem backup_inactive (inactive : (run.view start .backup).state ≠ .ACTIVE) :
    ∀ n ≥ start, (run.view n .backup).state ≠ .ACTIVE := by
  intro n later
  induction n, later using le_induction with
  | base => exact inactive
  | succ n _ ih =>
    exact (run.calmStep n).backup_inactive (run.roles n) ih

theorem primary_wins (active : ∀ n ≥ start, (run.view n .primary).state = .ACTIVE) :
    ∃ m ≥ start, ∀ n ≥ m, run.Leads .primary n := by
  obtain ⟨m, afterStart, hears⟩ := run.drained .backup (· = .ACTIVE) active
  obtain ⟨k, afterM, passive⟩ := run.settles_passive .backup hears
  refine ⟨k, afterStart.trans afterM, fun n afterK => ⟨?_, passive n afterK⟩⟩
  exact active n (afterStart.trans (afterM.trans afterK))

theorem settles : ∃ side start, ∀ n ≥ start, run.Leads side n := by
  by_cases always : ∀ n, (run.view n .backup).state = .ACTIVE
  · have hears : ∀ n ≥ 0, ∀ state ∈ (run.view n .primary).inbox, state = .ACTIVE := by
      intro n later
      apply (run.fed .primary (· = .ACTIVE) fun n _ => always n).drained later
      rw [run.empty_view]
      exact count_monotone _ later
    obtain ⟨m, _, passive⟩ := run.settles_passive .primary hears
    exact ⟨.backup, m, fun n afterM => ⟨always n, passive n afterM⟩⟩
  · push Not at always
    obtain ⟨_, inactive⟩ := always
    obtain ⟨m, _, hears⟩ := run.drained .primary (· ≠ .ACTIVE) (run.backup_inactive inactive)
    obtain ⟨k, _, active⟩ := run.settles_active hears
    obtain ⟨l, _, leads⟩ := run.primary_wins active
    exact ⟨.primary, l, leads⟩

/-! ### The hand-over -/

/-- The backup leaves `ACTIVE` on a heartbeat of a primary that is not active. -/
structure YieldsAt (n : ℕ) : Prop where
  wasActive : (run.pair n .backup).app.state = .ACTIVE
  heard : ∀ heartbeat ∈ (run.pair n .backup).inbox.head?, heartbeat.state ≠ .ACTIVE
  yielded : (run.pair (n + 1) .backup).app.state = .BACKUP

theorem backupLeads (active : (run.view n .backup).state = .ACTIVE) :
    (run.view n).BackupLeads := by
  induction n with
  | zero =>
    refine ⟨active, ?_, ?_, fun _ => ?_⟩
    all_goals rw [run.empty_view]
    · exact forall_mem_nil _
    · exact List.Pairwise.nil
    · exact forall_mem_nil _
  | succ n ih =>
    have before : (run.view n .backup).state = .ACTIVE := by
      by_contra inactive
      exact (run.calmStep n).backup_inactive (run.roles n) inactive active
    exact (ih before).step (run.calmStep n) active

theorem YieldsAt.handsOver (yields : run.YieldsAt n) : (run.view (n + 1)).HandsOver := by
  refine (run.backupLeads yields.wasActive).handsOver (run.calmStep n) ?_ yields.yielded
  intro peer isHead
  have mapped : ((run.pair n .backup).inbox.map BinaryStarSync.state).head? = some peer := isHead
  rw [head?_map] at mapped
  obtain ⟨heartbeat, isFirst, rfl⟩ := map_eq_some_iff.mp mapped
  exact yields.heard heartbeat isFirst

theorem primaryLeads_later (leads : (run.view start).PrimaryLeads) :
    ∀ n ≥ start, (run.view n).PrimaryLeads := by
  intro n later
  induction n, later using le_induction with
  | base => exact leads
  | succ n _ ih => exact ih.step (run.roles n) (run.calmStep n)

theorem handsOver_later (handsOver : (run.view start).HandsOver) :
    ∀ n ≥ start, (run.view n).HandsOver ∨ (run.view n).PrimaryLeads := by
  intro n later
  induction n, later using le_induction with
  | base => exact .inl handsOver
  | succ n _ ih =>
    rcases ih with still | leads
    · exact still.step (run.roles n) (run.calmStep n)
    · exact .inr (leads.step (run.roles n) (run.calmStep n))

/-- A point of the run just after a delivery, with a given number of deliveries before it. -/
theorem exists_delivery (start count : ℕ) : ∃ n ≥ start, (run.action n).Delivers side ∧
      run.deliveries side n = run.deliveries side start + count ∧
      run.deliveries side (n + 1) = run.deliveries side start + count + 1 := by
  obtain ⟨n, later, delivers, counted⟩ := Fifo.exists_removal (run.often side) start count
  refine ⟨n, later, delivers, counted, ?_⟩
  exact (count_succ_eq_succ_count_iff.mpr delivers).trans (congrArg (· + 1) counted)

/-- After as many deliveries as there were heartbeats, what is handed over was sent since. -/
theorem reads_new {start : ℕ} (later : start ≤ n)
    (sends : ∀ m ≥ start, good (run.view m side.peer).state)
    (counted : run.deliveries side start + (run.pair start side).inbox.length ≤
      run.deliveries side n) :
    ∀ state ∈ (run.view n side).inbox, good state := by
  apply (run.fed side good sends).drained later
  have sameLength : (run.view start side).inbox.length = (run.pair start side).inbox.length :=
    length_map _
  rw [sameLength]
  exact counted

theorem handsOver_ends (handsOver : (run.view start).HandsOver) :
    ∃ n > start, run.deliveries .primary n =
        run.deliveries .primary start + (run.pair start .primary).inbox.length + 1 ∧
      (run.view n).PrimaryLeads := by
  obtain ⟨n, later, delivers, counted, next⟩ :=
    run.exists_delivery .primary start (run.pair start .primary).inbox.length
  refine ⟨n + 1, lt_succ_of_le later, next, ?_⟩
  have notActive : (run.view start .backup).state ≠ .ACTIVE :=
    fun active => nomatch handsOver.yielded.symm.trans active
  have hears := run.reads_new .primary (· ≠ .ACTIVE) later (run.backup_inactive notActive)
    counted.ge
  rcases run.handsOver_later handsOver n later with still | leads
  · -- the head of the queue is a `BACKUP` that was sent after the backup had yielded
    obtain ⟨peer, queued, _, moves⟩ := run.delivered delivers
    obtain rfl := (still.primaryMail peer queued).resolve_left (hears peer queued)
    have active := moves.primary_takes ((run.roles n).state .primary)
    rcases still.step (run.roles n) (run.calmStep n) with stillWaits | leads
    · exact absurd active stillWaits.primary
    · exact leads
  · exact leads.step (run.roles n) (run.calmStep n)

theorem primaryLeads_ends (leads : (run.view start).PrimaryLeads) :
    ∃ n > start, run.deliveries .backup n =
        run.deliveries .backup start + (run.pair start .backup).inbox.length + 1 ∧
      ∀ m ≥ n, run.Leads .primary m := by
  obtain ⟨n, later, delivers, counted, next⟩ :=
    run.exists_delivery .backup start (run.pair start .backup).inbox.length
  have active : ∀ m ≥ start, (run.view m .primary).state = .ACTIVE :=
    fun m afterStart => (run.primaryLeads_later leads m afterStart).active
  have hears : ∀ m ≥ n, ∀ state ∈ (run.view m .backup).inbox, state = .ACTIVE :=
    fun m afterN => run.reads_new .backup (· = .ACTIVE) (later.trans afterN) active
      (counted.ge.trans (count_monotone _ afterN))
  have follows : ∀ m ≥ n, (run.action m).Delivers .backup →
      (run.view (m + 1) .backup).state = .PASSIVE := by
    intro m afterN delivers
    obtain ⟨peer, queued, _, moves⟩ := run.delivered delivers
    rw [hears m afterN peer queued] at moves
    exact moves.backup_follows (run.primaryLeads_later leads m (later.trans afterN)).backup
  have passive : ∀ m ≥ n + 1, (run.view m .backup).state = .PASSIVE := by
    intro m afterN
    induction m, afterN using le_induction with
    | base => exact follows n le_rfl delivers
    | succ m afterN ih =>
      rcases (run.calmStep m).side_cases .backup with ⟨delivers, _⟩ | ⟨_, same, _⟩
      · exact follows m ((le_succ n).trans afterN) delivers
      · exact same.trans ih
  refine ⟨n + 1, lt_succ_of_le later, next, fun m afterN => ⟨?_, passive m afterN⟩⟩
  exact active m (later.trans ((le_succ n).trans afterN))

end FairRun

/-- Every fair run settles on one active and one passive controller.  When an active backup yields,
the primary is active for good after one delivery more than there were heartbeats in flight towards
it, and the backup is then passive for good after one delivery more than there were heartbeats in
flight towards it. -/
theorem stabilizes (flags : BstarFlags) (run : FairRun flags) :
    (∃ side start, ∀ n ≥ start, run.Leads side n) ∧ ∀ n, run.YieldsAt n →
        ∃ active > n + 1, ∃ passive > active,
          run.deliveries .primary active = run.deliveries .primary (n + 1) +
            (run.pair (n + 1) .primary).inbox.length + 1 ∧
          run.deliveries .backup passive = run.deliveries .backup active +
            (run.pair active .backup).inbox.length + 1 ∧
          (∀ m ≥ active, (run.pair m .primary).app.state = .ACTIVE) ∧
          ∀ m ≥ passive, run.Leads .primary m := by
  refine ⟨run.settles, fun n yields => ?_⟩
  obtain ⟨active, afterYield, deliveredPrimary, leads⟩ := run.handsOver_ends yields.handsOver
  obtain ⟨passive, afterActive, deliveredBackup, settled⟩ := run.primaryLeads_ends leads
  exact ⟨active, afterYield, passive, afterActive, deliveredPrimary, deliveredBackup,
    fun m later => (run.primaryLeads_later leads m later).active, settled⟩

/-! A run in which the controllers take turns, from any states and empty channels. -/

/-- Each heartbeat is delivered before the next one is sent. -/
def roundRobin (n : ℕ) : PairAction :=
  match n % 4 with
  | 0 => .heartbeat .primary
  | 1 => .deliver .backup 0
  | 2 => .heartbeat .backup
  | _ => .deliver .primary 0

def roundRobinPair (flags : BstarFlags) (start : Pair) : ℕ → Pair
  | 0 => start
  | n + 1 => (execPair flags (roundRobin n) (roundRobinPair flags start n)).getD start

/-- Where the schedule stands: whose heartbeat is in flight. -/
structure TakesTurns (n : ℕ) (pair : Pair) : Prop where
  running : ∀ side, (pair side).running = true
  backup : (pair .backup).inbox.length = if n % 4 = 1 then 1 else 0
  primary : (pair .primary).inbox.length = if n % 4 = 3 then 1 else 0

variable {pair : Pair}

variable (flags : BstarFlags)

theorem TakesTurns.heartbeat (side : Side) (running : ∀ side, (pair side).running = true) :
    ∃ pair', execPair flags (.heartbeat side) pair = some pair' ∧
      (∀ side, (pair' side).running = true) ∧
      (pair' side).inbox.length = (pair side).inbox.length ∧
      (pair' side.peer).inbox.length = (pair side.peer).inbox.length + 1 := by
  refine ⟨_, if_pos (running side), ?_, ?_, ?_⟩
  · cases side with
    | _ => intro other; cases other <;> exact running _
  · cases side <;> rfl
  · cases side <;> exact length_append

theorem TakesTurns.deliver (side : Side)
    (running : ∀ side, (pair side).running = true) (queued : (pair side).inbox.length = 1) :
    ∃ pair', execPair flags (.deliver side 0) pair = some pair' ∧
      (∀ side, (pair' side).running = true) ∧ (pair' side).inbox.length = 0 ∧
      (pair' side.peer).inbox.length = (pair side.peer).inbox.length := by
  obtain ⟨heartbeat, isOnly⟩ := length_eq_one_iff.mp queued
  refine ⟨pair.set side { pair side with
    app := (processBstarSync flags 0 (pair side).app heartbeat).1, inbox := [] }, ?_, ?_, ?_, ?_⟩
  · rw [execPair, if_pos (running side), isOnly]
  · cases side with
    | _ => intro other; cases other <;> exact running _
  · rw [Pair.set_self]
    rfl
  · cases side <;> rfl

theorem TakesTurns.step (turn : TakesTurns n pair) :
    ∃ pair', execPair flags (roundRobin n) pair = some pair' ∧ TakesTurns (n + 1) pair' := by
  have backup := turn.backup
  have primary := turn.primary
  unfold roundRobin
  obtain now | now | now | now : n % 4 = 0 ∨ n % 4 = 1 ∨ n % 4 = 2 ∨ n % 4 = 3 := by omega
  all_goals rw [now] at backup primary ⊢
  · have next : (n + 1) % 4 = 1 := by omega
    obtain ⟨pair', ran, running, own, peer⟩ := heartbeat flags .primary turn.running
    refine ⟨pair', ran, running, ?_, ?_⟩
    · rw [next]
      exact peer.trans (congrArg (· + 1) backup)
    · rw [next]
      exact own.trans primary
  · have next : (n + 1) % 4 = 2 := by omega
    obtain ⟨pair', ran, running, own, peer⟩ := deliver flags .backup turn.running backup
    refine ⟨pair', ran, running, ?_, ?_⟩
    · rw [next]
      exact own
    · rw [next]
      exact peer.trans primary
  · have next : (n + 1) % 4 = 3 := by omega
    obtain ⟨pair', ran, running, own, peer⟩ := heartbeat flags .backup turn.running
    refine ⟨pair', ran, running, ?_, ?_⟩
    · rw [next]
      exact own.trans backup
    · rw [next]
      exact peer.trans (congrArg (· + 1) primary)
  · have next : (n + 1) % 4 = 0 := by omega
    obtain ⟨pair', ran, running, own, peer⟩ := deliver flags .primary turn.running primary
    refine ⟨pair', ran, running, ?_, ?_⟩
    · rw [next]
      exact peer.trans backup
    · rw [next]
      exact own

section RoundRobin

variable {start : Pair} (running : ∀ side, (start side).running = true)
  (empty : ∀ side, (start side).inbox = [])

include running empty

theorem roundRobin_takesTurns (n : ℕ) : TakesTurns n (roundRobinPair flags start n) := by
  induction n with
  | zero =>
    refine ⟨running, ?_, ?_⟩
    · exact congrArg length (empty .backup)
    · exact congrArg length (empty .primary)
  | succ n ih =>
    obtain ⟨_, ran, turn⟩ := ih.step flags
    rw [roundRobinPair, ran]
    exact turn

theorem roundRobin_step (n : ℕ) : execPair flags (roundRobin n) (roundRobinPair flags start n) =
    some (roundRobinPair flags start (n + 1)) := by
  obtain ⟨_, ran, _⟩ := (roundRobin_takesTurns flags running empty n).step flags
  rw [roundRobinPair, ran]
  rfl

end RoundRobin

theorem roundRobin_next (turn n : ℕ) (isTurn : turn < 4) :
    ∃ m ≥ n, roundRobin m = roundRobin turn := by
  refine ⟨n * 4 + turn, by omega, ?_⟩
  unfold roundRobin
  rw [mul_add_mod_of_lt isTurn, mod_eq_of_lt isTurn]

/-- Taking turns is fair. -/
def roundRobinRun (flags : BstarFlags) (start : Pair)
    (running : ∀ side, (start side).running = true) (inRole : start.InRole)
    (states : ∀ side, (start side).app.state ≠ originalState side.peer.isBstarPrimary)
    (empty : ∀ side, (start side).inbox = []) : FairRun flags where
  pair := roundRobinPair flags start
  action := roundRobin
  step := roundRobin_step flags running empty
  running := running
  inRole := inRole
  states := states
  empty := empty
  calm n := by
    unfold roundRobin
    split <;> trivial
  heartbeats side n := by
    cases side with
    | primary => exact roundRobin_next 0 n (by decide)
    | backup => exact roundRobin_next 2 n (by decide)
  served side n _ := by
    cases side with
    | primary =>
      obtain ⟨m, later, isTurn⟩ := roundRobin_next 3 n (by decide)
      refine ⟨m, later, ?_⟩
      rw [isTurn]
      rfl
    | backup =>
      obtain ⟨m, later, isTurn⟩ := roundRobin_next 1 n (by decide)
      refine ⟨m, later, ?_⟩
      rw [isTurn]
      rfl

def backupActive : Pair := fun side =>
  ⟨(BinaryStarApp.start side.isBstarPrimary "1.0").withState
    (match side with | .primary => .PASSIVE | .backup => .ACTIVE), true, []⟩

/-- After one heartbeat the backup hands over to the primary, for good. -/
theorem stabilizes_handover : ∃ run : FairRun { primaryRecoveryHeartbeats := 1 },
      run.YieldsAt 1 ∧ (∃ side start, ∀ n ≥ start, run.Leads side n) ∧
      ∃ active > 2, ∀ m ≥ active, (run.pair m .primary).app.state = .ACTIVE := by
  let run : FairRun { primaryRecoveryHeartbeats := 1 } :=
    roundRobinRun _ backupActive (fun _ => rfl) (fun _ => rfl)
      (fun side => by cases side <;> decide) (fun _ => rfl)
  have yields : run.YieldsAt 1 := by
    refine ⟨rfl, ?_, rfl⟩
    intro _ isHead
    cases isHead
    decide
  obtain ⟨settled, handsOver⟩ := stabilizes _ run
  obtain ⟨active, later, _, _, _, _, stays, _⟩ := handsOver 1 yields
  exact ⟨run, yields, settled, active, later, stays⟩

end Fairness

section DataSync

open List Nat Bool

/-! ### One heartbeat -/

theorem forwardAppData_of_isEmpty {data : BinaryStarAppData} (empty : data.isEmpty = true) :
    forwardAppData data = [] := by
  unfold BinaryStarAppData.isEmpty at empty
  rw [not_eq_true', or_eq_false_iff] at empty
  unfold forwardAppData
  rw [empty.1, empty.2]
  rfl

theorem processEvent_follows (now : Int) {fsm : BinaryStar} (inactive : fsm.state ≠ .ACTIVE) :
    processEvent now fsm .PEER_ACTIVE = .ok { fsm with state := .PASSIVE } := by
  cases fsm with
  | mk state =>
    cases state with
    | PRIMARY | BACKUP => rfl
    | ACTIVE => exact absurd rfl inactive
    | PASSIVE => rfl

variable {app : BinaryStarApp} (flags : BstarFlags) {heartbeat : BinaryStarSync}

/-- A controller that is not active follows an active one of its version.  It adopts the number and
hands out the data only if it was passive. -/
theorem processBstarSync_follows (now : Int)
    (inactive : app.state ≠ .ACTIVE) (active : heartbeat.state = .ACTIVE)
    (sameVersion : heartbeat.version = app.version) :
    (processBstarSync flags now app heartbeat).1.state = .PASSIVE ∧
      (processBstarSync flags now app heartbeat).1.version = app.version ∧
      (processBstarSync flags now app heartbeat).1.seqNum =
        (if app.state = .PASSIVE then heartbeat.seqNum else app.seqNum) ∧
      ∃ others, (processBstarSync flags now app heartbeat).2 =
        (if app.state = .PASSIVE then forwardAppData heartbeat.data else []) ++ others := by
  unfold processBstarSync
  rw [active, BinaryStarFsmState.toEvent, processEvent_follows now inactive]
  dsimp only
  unfold passiveActions
  rw [if_pos ⟨rfl, active⟩]
  by_cases passive : app.state = .PASSIVE
  · rw [if_neg (not_not.mpr passive), if_pos passive, if_pos passive, if_pos sameVersion]
    exact ⟨rfl, rfl, rfl, _, append_assoc _ _ _⟩
  · rw [if_pos passive, if_neg passive, if_neg passive]
    exact ⟨rfl, rfl, rfl, _, rfl⟩

theorem processEvent_stays (now : Int) {fsm : BinaryStar} {peer : BinaryStarFsmState}
    (active : fsm.state = .ACTIVE) (inactive : peer ≠ .ACTIVE) :
    processEvent now fsm peer.toEvent = .ok fsm := by
  unfold processEvent
  rw [active]
  cases peer with
  | ACTIVE => exact absurd rfl inactive
  | PRIMARY | BACKUP | PASSIVE => rfl

/-- An active controller that hears of no other active one keeps its number, or yields. -/
theorem processBstarSync_active (now : Int)
    (active : app.state = .ACTIVE) (inactive : heartbeat.state ≠ .ACTIVE) :
    ((processBstarSync flags now app heartbeat).1.state = .ACTIVE ∧
        (processBstarSync flags now app heartbeat).1.version = app.version ∧
        (processBstarSync flags now app heartbeat).1.seqNum = app.seqNum) ∨
      (app.isBstarPrimary = false ∧
        (processBstarSync flags now app heartbeat).1.state = .BACKUP) := by
  unfold processBstarSync
  rw [processEvent_stays now active inactive]
  dsimp only
  unfold passiveActions
  rw [if_neg fun both => inactive both.2]
  unfold activeActions checkRecovery
  rw [if_pos active, if_neg (not_not.mpr active)]
  dsimp only
  split_ifs with recovers yields
  · exact .inr ⟨recovers.1, rfl⟩
  · exact .inl ⟨active, rfl, rfl⟩
  · exact .inl ⟨active, rfl, rfl⟩

/-- A heartbeat carries the number that its sender has afterwards, and data only with a new one. -/
theorem sendHeartbeat_seqNum (app : BinaryStarApp) :
    (sendHeartbeat app).2.seqNum = (sendHeartbeat app).1.seqNum ∧
      app.seqNum ≤ (sendHeartbeat app).1.seqNum ∧
      ((sendHeartbeat app).2.data.isEmpty = false → app.seqNum < (sendHeartbeat app).1.seqNum) := by
  unfold sendHeartbeat
  split_ifs
  · exact ⟨rfl, le_rfl, nofun⟩
  · exact ⟨rfl, le_succ _, fun _ => lt_succ_self _⟩
  · exact ⟨rfl, le_succ _, fun _ => lt_succ_self _⟩
  · exact ⟨rfl, le_rfl, nofun⟩

theorem sendHeartbeat_version (app : BinaryStarApp) :
    (sendHeartbeat app).1.version = app.version ∧ (sendHeartbeat app).2.version = app.version := by
  unfold sendHeartbeat
  split_ifs
  all_goals exact ⟨rfl, rfl⟩

/-! ### The numbers in flight -/

/-- Every kind of data is also in the copy. -/
def BinaryStarAppData.Within (data copy : BinaryStarAppData) : Prop :=
  (data.topology.isSome → copy.topology.isSome) ∧
    (data.configNetworkOverrides.isSome → copy.configNetworkOverrides.isSome) ∧
    (data.configNodeOverrides.isSome → copy.configNodeOverrides.isSome) ∧
    (data.configAutoNodeOverrides.isSome → copy.configAutoNodeOverrides.isSome) ∧
    (data.configController.isSome → copy.configController.isSome)

instance (data copy : BinaryStarAppData) : Decidable (data.Within copy) :=
  inferInstanceAs (Decidable (_ ∧ _))

/-- The peer and the heartbeats on their way back are behind a heartbeat. -/
def Behind (active peer : BinaryStarApp) (toActive : List BinaryStarSync) (seqNum : Nat) : Prop :=
  peer.seqNum < seqNum ∧ seqNum ≤ active.seqNum ∧ ∀ reply ∈ toActive, reply.seqNum < seqNum

/-- Data that has been ignored, which a strict run does not have, has been delivered as a copy, or
its number is still waited for. -/
def CaughtUp (strict : Prop) (ignored delivered : List BinaryStarSync) (waiting : Nat → Prop) :
    Prop :=
  ∀ missed ∈ ignored, missed.data.isEmpty = false → ¬ strict ∧
    ((∃ copy ∈ delivered, missed.data.Within copy.data) ∨ waiting missed.seqNum)

theorem CaughtUp.mono {strict : Prop} {ignored delivered : List BinaryStarSync}
    {waiting waiting' : Nat → Prop} (caughtUp : CaughtUp strict ignored delivered waiting)
    (waits : ∀ seqNum, waiting seqNum → waiting' seqNum) :
    CaughtUp strict ignored delivered waiting' := by
  intro missed isMissed hasData
  exact (caughtUp missed isMissed hasData).imp_right (.imp_right (waits _))

/-- What holds while one controller is active.  Data in flight has a number that the peer has not
seen and that no heartbeat on its way back carries. -/
structure Synced (strict : Prop) (active peer : BinaryStarApp)
    (toPeer toActive sent : List BinaryStarSync) (told : List BstarNotice) : Prop where
  isActive : active.state = .ACTIVE
  peerInactive : peer.state ≠ .ACTIVE
  sameVersion : active.version = peer.version
  peerNumber : peer.seqNum ≤ active.seqNum
  mail : ∀ heartbeat ∈ toPeer, heartbeat.state = .ACTIVE ∧ heartbeat.version = peer.version ∧
    heartbeat.seqNum ≤ active.seqNum
  replies : ∀ reply ∈ toActive, reply.state ≠ .ACTIVE ∧ reply.seqNum ≤ active.seqNum
  unseen : ∀ heartbeat ∈ toPeer, heartbeat.data.isEmpty = false →
    peer.seqNum < heartbeat.seqNum ∧ ∀ reply ∈ toActive, reply.seqNum < heartbeat.seqNum
  ordered : toPeer.Pairwise fun before after =>
    after.data.isEmpty = false → before.seqNum < after.seqNum
  applied : ∃ ignored delivered, sent = ignored ++ delivered ++ toPeer ∧
    (delivered.flatMap fun heartbeat => forwardAppData heartbeat.data).Sublist told ∧
    (peer.state ≠ .PASSIVE → delivered = []) ∧
    CaughtUp strict ignored delivered (Behind active peer toActive)

namespace Synced

variable {strict : Prop} {active peer : BinaryStarApp} {toPeer toActive sent : List BinaryStarSync}
  {told : List BstarNotice}

theorem send (synced : Synced strict active peer toPeer toActive sent told) :
    Synced strict (sendHeartbeat active).1 peer (toPeer ++ [(sendHeartbeat active).2]) toActive
      (sent ++ [(sendHeartbeat active).2]) told := by
  obtain ⟨carries, grows, grown⟩ := sendHeartbeat_seqNum active
  obtain ⟨keeps, stamped⟩ := sendHeartbeat_version active
  refine ⟨?_, synced.peerInactive, keeps.trans synced.sameVersion, synced.peerNumber.trans grows,
    ?_, ?_, ?_, ?_, ?_⟩
  · exact (congrArg BinaryStar.state (sendHeartbeat_fsm active)).trans synced.isActive
  · refine forall_mem_append.mpr ⟨fun heartbeat queued => ?_,
      forall_mem_singleton.mpr ⟨?_, stamped.trans synced.sameVersion, carries.le⟩⟩
    · obtain ⟨isActive, version, number⟩ := synced.mail heartbeat queued
      exact ⟨isActive, version, number.trans grows⟩
    · exact (sendHeartbeat_state active).trans synced.isActive
  · intro reply queued
    exact ⟨(synced.replies reply queued).1, (synced.replies reply queued).2.trans grows⟩
  · refine forall_mem_append.mpr ⟨synced.unseen, forall_mem_singleton.mpr fun hasData => ?_⟩
    rw [carries]
    exact ⟨synced.peerNumber.trans_lt (grown hasData),
      fun reply queued => (synced.replies reply queued).2.trans_lt (grown hasData)⟩
  · refine pairwise_append.mpr ⟨synced.ordered, pairwise_singleton _ _, ?_⟩
    intro before queued _ new hasData
    rw [mem_singleton.mp new] at hasData ⊢
    rw [carries]
    exact (synced.mail before queued).2.2.trans_lt (grown hasData)
  · obtain ⟨ignored, delivered, split, forwarded, fresh, missing⟩ := synced.applied
    refine ⟨ignored, delivered, ?_, forwarded, fresh, missing.mono ?_⟩
    · rw [split, append_assoc]
    · rintro _ ⟨ahead, sent, unseen⟩
      exact ⟨ahead, sent.trans grows, unseen⟩

theorem reply (synced : Synced strict active peer toPeer toActive sent told) :
    Synced strict active (sendHeartbeat peer).1 toPeer (toActive ++ [(sendHeartbeat peer).2]) sent
      told := by
  rw [sendHeartbeat, if_neg synced.peerInactive]
  refine { synced with replies := ?_, unseen := ?_, applied := ?_ }
  · refine forall_mem_append.mpr ⟨synced.replies, forall_mem_singleton.mpr ?_⟩
    exact ⟨synced.peerInactive, synced.peerNumber⟩
  · intro heartbeat queued hasData
    obtain ⟨ahead, aheadOfReplies⟩ := synced.unseen heartbeat queued hasData
    exact ⟨ahead, forall_mem_append.mpr ⟨aheadOfReplies, forall_mem_singleton.mpr ahead⟩⟩
  · obtain ⟨ignored, delivered, split, forwarded, fresh, missing⟩ := synced.applied
    refine ⟨ignored, delivered, split, forwarded, fresh, missing.mono ?_⟩
    rintro _ ⟨ahead, sent, unseen⟩
    exact ⟨ahead, sent, forall_mem_append.mpr ⟨unseen, forall_mem_singleton.mpr ahead⟩⟩

variable {rest : List BinaryStarSync}

/-- In a strict run the peer ignores no data.  In any other run a passive peer that is behind a
heartbeat with data is next handed a copy. -/
theorem follow (flags : BstarFlags)
    (now : Int) (synced : Synced strict active peer (heartbeat :: rest) toActive sent told)
    (noData : strict → peer.state ≠ .PASSIVE → heartbeat.data.isEmpty = true)
    (copies : ¬ strict → peer.state = .PASSIVE →
      ∀ missed ∈ sent.take (sent.length - (heartbeat :: rest).length),
        missed.data.isEmpty = false → peer.seqNum < missed.seqNum →
          missed.data.Within heartbeat.data) :
    Synced strict active (processBstarSync flags now peer heartbeat).1 rest toActive sent
      (told ++ (processBstarSync flags now peer heartbeat).2) := by
  obtain ⟨⟨isActive, version, number⟩, restMail⟩ := forall_mem_cons.mp synced.mail
  obtain ⟨passive, sameVersion, newNumber, _, notices⟩ :=
    processBstarSync_follows flags now synced.peerInactive isActive version
  obtain ⟨before, ordered⟩ := pairwise_cons.mp synced.ordered
  obtain ⟨unseenHere, unseen⟩ := forall_mem_cons.mp synced.unseen
  refine ⟨synced.isActive, ?_, synced.sameVersion.trans sameVersion.symm, ?_, ?_, synced.replies, ?_,
    ordered, ?_⟩
  · rw [passive]
    nofun
  · rw [newNumber]
    split_ifs
    · exact number
    · exact synced.peerNumber
  · rw [sameVersion]
    exact restMail
  · intro later queued hasData
    refine ⟨?_, (unseen later queued hasData).2⟩
    rw [newNumber]
    split_ifs
    · exact before later queued hasData
    · exact (unseen later queued hasData).1
  · obtain ⟨ignored, delivered, split, forwarded, fresh, missing⟩ := synced.applied
    by_cases wasPassive : peer.state = .PASSIVE
    · refine ⟨ignored, delivered ++ [heartbeat], ?_, ?_, fun other => absurd passive other, ?_⟩
      · rw [split, append_assoc, append_assoc, append_assoc, singleton_append]
      · rw [flatMap_append, flatMap_singleton, notices, if_pos wasPassive]
        exact forwarded.append (sublist_append_left _ _)
      · intro missed isMissed hasData
        obtain ⟨loose, known⟩ := missing missed isMissed hasData
        have handed : missed ∈ sent.take (sent.length - (heartbeat :: rest).length) := by
          rw [split, length_append, Nat.add_sub_cancel, take_left]
          exact mem_append_left _ isMissed
        refine ⟨loose, .inl ?_⟩
        rcases known with ⟨copy, isCopy, within⟩ | ⟨ahead, _⟩
        · exact ⟨copy, mem_append_left _ isCopy, within⟩
        · exact ⟨heartbeat, mem_append_right _ (mem_singleton.mpr rfl),
            copies loose wasPassive missed handed hasData ahead⟩
    · obtain rfl := fresh wasPassive
      refine ⟨ignored ++ [heartbeat], [], ?_, nil_sublist _, fun _ => rfl, ?_⟩
      · rw [split, append_nil, append_nil, append_assoc, singleton_append]
      · have behind : ∀ seqNum, Behind active peer toActive seqNum → Behind active
            (processBstarSync flags now peer heartbeat).1 toActive seqNum := by
          unfold Behind
          rw [newNumber, if_neg wasPassive]
          exact fun _ => id
        refine forall_mem_append.mpr ⟨missing.mono behind, forall_mem_singleton.mpr fun hasData => ?_⟩
        obtain ⟨ahead, aheadOfReplies⟩ := unseenHere hasData
        refine ⟨fun isStrict => ?_, .inr (behind _ ⟨ahead, number, aheadOfReplies⟩)⟩
        rw [noData isStrict wasPassive] at hasData
        cases hasData

variable {reply : BinaryStarSync}

theorem receive (flags : BstarFlags)
    (now : Int) (synced : Synced strict active peer toPeer (reply :: rest) sent told)
    (stays : (processBstarSync flags now active reply).1.state = .ACTIVE) :
    Synced strict (processBstarSync flags now active reply).1 peer toPeer rest sent told := by
  obtain ⟨⟨inactive, _⟩, replies⟩ := forall_mem_cons.mp synced.replies
  rcases processBstarSync_active flags now synced.isActive inactive with
    ⟨_, version, number⟩ | ⟨_, yielded⟩
  · refine ⟨stays, synced.peerInactive, version.trans synced.sameVersion, ?_, ?_, ?_, ?_,
      synced.ordered, ?_⟩
    · rw [number]
      exact synced.peerNumber
    · rw [number]
      exact synced.mail
    · rw [number]
      exact replies
    · intro heartbeat queued hasData
      obtain ⟨ahead, aheadOfReplies⟩ := synced.unseen heartbeat queued hasData
      exact ⟨ahead, (forall_mem_cons.mp aheadOfReplies).2⟩
    · obtain ⟨ignored, delivered, split, forwarded, fresh, missing⟩ := synced.applied
      refine ⟨ignored, delivered, split, forwarded, fresh, missing.mono ?_⟩
      rintro _ ⟨ahead, sent, unseen⟩
      exact ⟨ahead, number ▸ sent, (forall_mem_cons.mp unseen).2⟩
  · exact nomatch yielded.symm.trans stays

/-- When the number of the active controller comes back, nothing with data is in flight, and what
the peer has ignored it has got a copy of. -/
theorem acknowledged (synced : Synced strict active peer toPeer toActive sent told)
    (queued : reply ∈ toActive) (equal : reply.seqNum = active.seqNum) :
    ∃ ignored applied, sent = ignored ++ applied ++ toPeer ∧
      (∀ heartbeat ∈ toPeer, heartbeat.data.isEmpty = true) ∧
      (applied.flatMap fun heartbeat => forwardAppData heartbeat.data).Sublist told ∧
      CaughtUp strict ignored applied fun _ => False := by
  obtain ⟨ignored, delivered, split, forwarded, _, missing⟩ := synced.applied
  refine ⟨ignored, delivered, split, fun heartbeat inFlight => ?_, forwarded, ?_⟩
  · by_contra hasData
    rw [not_eq_true] at hasData
    have ahead := (synced.unseen heartbeat inFlight hasData).2 reply queued
    have bound := (synced.mail heartbeat inFlight).2.2
    omega
  · refine missing.mono ?_
    rintro seqNum ⟨_, bound, unseen⟩
    have ahead := unseen reply queued
    omega

theorem setAppData (synced : Synced strict active peer toPeer toActive sent told)
    (update : AppDataUpdate) : Synced strict (active.setAppData update) peer toPeer toActive sent told :=
  { synced with }

end Synced

/-! ### Runs -/

/-- A pair, with the heartbeats sent by the active side and what the other has told its apps. -/
structure SyncRun where
  pair : Pair
  sent : List BinaryStarSync
  told : List BstarNotice

def sentBy (side : Side) (pair : Pair) : PairAction → List BinaryStarSync
  | .heartbeat sender => if sender = side then [(sendHeartbeat (pair side).app).2] else []
  | _ => []

/-- What an action makes a controller tell its apps. -/
def toldBy (side : Side) (pair : Pair) : PairAction → List BstarNotice
  | .deliver receiver now =>
    if receiver = side then
      match (pair side).inbox with
      | [] => []
      | heartbeat :: _ => (processBstarSync flags now (pair side).app heartbeat).2
    else []
  | _ => []

/-- An action of the pair, with the logs for an active controller. -/
def execSync (side : Side) (action : PairAction) (run : SyncRun) : Option SyncRun :=
  (execPair flags action run.pair).map fun pair =>
    { pair
      sent := run.sent ++ sentBy side run.pair action
      told := run.told ++ toldBy flags side.peer run.pair action }

/-- One controller is active and its peer, of the same version, is not; nothing is in flight. -/
structure SyncRun.Begins (side : Side) (run : SyncRun) : Prop where
  running : ∀ controller, (run.pair controller).running = true
  inRole : run.pair.InRole
  states : ∀ controller,
    (run.pair controller).app.state ≠ originalState controller.peer.isBstarPrimary
  empty : ∀ controller, (run.pair controller).inbox = []
  active : (run.pair side).app.state = .ACTIVE
  inactive : (run.pair side.peer).app.state ≠ .ACTIVE
  sameVersion : (run.pair side).app.version = (run.pair side.peer).app.version
  sent : run.sent = []
  told : run.told = []

/-- When the active controller reads its own number from a passive peer, the peer has handed out the
data of every heartbeat with a number up to that one. -/
def AppliedWhenAcknowledged (side : Side) (run : SyncRun) : Prop :=
  ∀ reply ∈ (run.pair side).inbox.head?, (run.pair side).app.state = .ACTIVE →
    reply.state = .PASSIVE → reply.seqNum = (run.pair side).app.seqNum →
      ((run.sent.filter fun heartbeat => heartbeat.seqNum ≤ reply.seqNum).flatMap
        fun heartbeat => forwardAppData heartbeat.data).Sublist run.told

/-- The same, if later copies also count. -/
def CopiedWhenAcknowledged (side : Side) (run : SyncRun) : Prop :=
  ∀ reply ∈ (run.pair side).inbox.head?, (run.pair side).app.state = .ACTIVE →
    reply.state = .PASSIVE → reply.seqNum = (run.pair side).app.seqNum →
      ∃ ignored applied inFlight, run.sent = ignored ++ applied ++ inFlight ∧
        (∀ heartbeat ∈ inFlight, heartbeat.data.isEmpty = true) ∧
        (applied.flatMap fun heartbeat => forwardAppData heartbeat.data).Sublist run.told ∧
        ∀ missed ∈ ignored, missed.data.isEmpty = false →
          ∃ copy ∈ applied, missed.data.Within copy.data

/-- A heartbeat that is handed to the peer of a controller meets a condition. -/
def Handed (side : Side) (run : SyncRun) (allowed : BinaryStarApp → BinaryStarSync → Prop) :
    PairAction → Prop
  | .deliver receiver _ => receiver = side.peer →
      ∀ heartbeat ∈ (run.pair side.peer).inbox.head?, allowed (run.pair side.peer).app heartbeat
  | _ => True

instance (side : Side) (run : SyncRun) (allowed : BinaryStarApp → BinaryStarSync → Prop)
    [∀ peer heartbeat, Decidable (allowed peer heartbeat)] (action : PairAction) :
    Decidable (Handed side run allowed action) :=
  match action with
  | .deliver _ _ => inferInstanceAs (Decidable (_ → _))
  | .heartbeat _ | .lose _ _ | .crash _ | .restart _ _ | .clientRequest _ _ | .setAppData _ _ =>
    isTrue trivial

/-- A heartbeat that is handed to a controller that is not passive yet carries no data. -/
abbrev PassiveBeforeData (side : Side) (run : SyncRun) : PairAction → Prop :=
  Handed side run fun peer heartbeat => peer.state ≠ .PASSIVE → heartbeat.data.isEmpty = true

/-- A passive controller that has ignored data is next handed a full copy. -/
abbrev CopyBeforeNews (side : Side) (run : SyncRun) : PairAction → Prop :=
  Handed side run fun peer heartbeat => peer.state = .PASSIVE →
    ∀ missed ∈ run.sent.take (run.sent.length - (run.pair side.peer).inbox.length),
      missed.data.isEmpty = false → peer.seqNum < missed.seqNum →
        missed.data.Within heartbeat.data

/-- The peer does not start ahead of the active controller. -/
def SyncRun.NotAhead (side : Side) (run : SyncRun) : Prop :=
  (run.pair side.peer).app.seqNum ≤ (run.pair side).app.seqNum

/-- Runs over lossless channels. -/
abbrev ReachesSync (side : Side) (begins : SyncRun → Prop)
    (allowed : SyncRun → PairAction → Prop) : SyncRun → Prop :=
  Transition.Reaches (fun run => run.Begins side ∧ begins run)
    (fun run action run' => execSync flags side action run = some run')
    (fun run action => action.Calm ∧ allowed run action)

/-- The numbers are in step while the controller is active, and only a backup stops being so. -/
structure SyncRun.InStep (strict : Prop) (side : Side) (run : SyncRun) : Prop where
  inRole : run.pair.InRole
  roles : run.pair.view.Roles
  synced : (run.pair side).app.state = .ACTIVE →
    Synced strict (run.pair side).app (run.pair side.peer).app (run.pair side.peer).inbox
      (run.pair side).inbox run.sent run.told
  yields : (run.pair side).app.state ≠ .ACTIVE → side = .backup

section Run

variable {flags} {strict : Prop} {side : Side} {run run' : SyncRun} {action : PairAction}

theorem SyncRun.Begins.inStep (begins : run.Begins side) (number : run.NotAhead side) :
    run.InStep strict side := by
  refine ⟨begins.inRole, ⟨begins.states, fun controller => ?_⟩, fun active => ?_,
    fun inactive => absurd begins.active inactive⟩
  · have empty : (run.pair.view controller).inbox = [] :=
      congrArg (map BinaryStarSync.state) (begins.empty controller)
    rw [empty]
    exact forall_mem_nil _
  · rw [begins.empty, begins.empty, begins.sent, begins.told]
    exact ⟨active, begins.inactive, begins.sameVersion, number, forall_mem_nil _,
      forall_mem_nil _, forall_mem_nil _, List.Pairwise.nil,
      [], [], rfl, List.Sublist.refl _, fun _ => rfl, forall_mem_nil _⟩

/-- One action of either controller keeps the two in step while `side` is active. -/
theorem execPair_synced {pair' : Pair}
    (synced : Synced strict (run.pair side).app (run.pair side.peer).app (run.pair side.peer).inbox
      (run.pair side).inbox run.sent run.told)
    (ran : execPair flags action run.pair = some pair') (calm : action.Calm)
    (allowed : (strict → PassiveBeforeData side run action) ∧
      (¬ strict → CopyBeforeNews side run action)) (active : (pair' side).app.state = .ACTIVE) :
    Synced strict (pair' side).app (pair' side.peer).app (pair' side.peer).inbox (pair' side).inbox
      (run.sent ++ sentBy side run.pair action)
      (run.told ++ toldBy flags side.peer run.pair action) := by
  cases action with
  | heartbeat sender =>
    obtain ⟨_, sends⟩ := Option.ite_none_right_eq_some.mp ran
    cases sends
    simp only [sentBy, toldBy, append_nil]
    by_cases own : sender = side
    · subst own
      rw [if_pos rfl, Pair.set_self, Pair.set_peer_self, Pair.set_self]
      exact synced.send
    · obtain rfl := Side.eq_peer_of_ne own
      rw [if_neg own, append_nil, Side.peer_peer, Pair.set_self, Pair.set_peer, Pair.set_self]
      exact synced.reply
  | deliver receiver now =>
    obtain ⟨_, delivers⟩ := Option.ite_none_right_eq_some.mp ran
    simp only [sentBy, toldBy, append_nil]
    by_cases own : receiver = side
    · subst own
      rw [if_neg receiver.ne_peer, append_nil]
      split at delivers
      · cases delivers
      · next _ _ mail =>
        cases delivers
        rw [Pair.set_self] at active ⊢
        rw [Pair.set_peer]
        rw [mail] at synced
        exact synced.receive flags now active
    · obtain rfl := Side.eq_peer_of_ne own
      split at delivers
      · cases delivers
      · next heartbeat _ mail =>
        cases delivers
        have noData := fun isStrict => allowed.1 isStrict rfl heartbeat
        have copies := fun loose => allowed.2 loose rfl heartbeat
        simp only [mail] at synced noData copies ⊢
        rw [Pair.set_self, Pair.set_peer_self]
        exact synced.follow flags now (noData · rfl) (copies · rfl)
  | setAppData writer update =>
    obtain ⟨_, updates⟩ := Option.ite_none_right_eq_some.mp ran
    cases updates
    simp only [sentBy, toldBy, append_nil]
    by_cases own : writer = side
    · subst own
      rw [Pair.set_self, Pair.set_peer]
      exact synced.setAppData update
    · obtain rfl := Side.eq_peer_of_ne own
      rw [Pair.set_self, Pair.set_peer_self]
      exact { synced with }
  | lose _ _ | crash _ | restart _ _ | clientRequest _ _ => exact calm.elim

theorem execPair_yields {pair' : Pair} (inStep : run.InStep strict side)
    (ran : execPair flags action run.pair = some pair') (calm : action.Calm)
    (inactive : (pair' side).app.state ≠ .ACTIVE) : side = .backup := by
  by_cases before : (run.pair side).app.state = .ACTIVE
  · have step := (execPair_view inStep.inRole ran).calm calm
    rcases step.side_cases side with ⟨_, peer, mail, moves⟩ | ⟨_, same, _⟩
    · have fromPeer : peer ≠ .ACTIVE := by
        obtain ⟨reply, queued, rfl⟩ : ∃ reply ∈ (run.pair side).inbox, reply.state = peer := by
          apply mem_map.mp
          exact mem_of_mem_head? (congrArg head? mail)
        exact ((inStep.synced before).replies reply queued).1
      cases side with
      | primary =>
        have isActive : (run.pair.view .primary).state = .ACTIVE := before
        rw [isActive] at moves
        exact absurd (moves.primary_stays fromPeer) inactive
      | backup => rfl
    · exact absurd (same.trans before) inactive
  · exact inStep.yields before

theorem SyncRun.InStep.step (inStep : run.InStep strict side) (calm : action.Calm)
    (allowed : (strict → PassiveBeforeData side run action) ∧
      (¬ strict → CopyBeforeNews side run action))
    (ran : execSync flags side action run = some run') : run'.InStep strict side := by
  obtain ⟨_, ranPair, rfl⟩ := Option.map_eq_some_iff.mp ran
  have step := execPair_view inStep.inRole ranPair
  refine ⟨execPair_inRole inStep.inRole ranPair, inStep.roles.step step, fun active => ?_,
    execPair_yields inStep ranPair calm⟩
  have before : (run.pair side).app.state = .ACTIVE := by
    by_contra inactive
    obtain rfl := inStep.yields inactive
    exact (step.calm calm).backup_inactive inStep.roles inactive active
  exact execPair_synced (inStep.synced before) ranPair calm allowed active

/-- The two stay in step in every run. -/
theorem inStep_of_reaches {allowed : SyncRun → PairAction → Prop}
    (reached : ReachesSync flags side (·.NotAhead side) allowed run)
    (strictly : ∀ run action, allowed run action → (strict → PassiveBeforeData side run action) ∧
      (¬ strict → CopyBeforeNews side run action)) : run.InStep strict side := by
  refine reached.invariant (SyncRun.InStep strict side) (fun _ start => start.1.inStep start.2) ?_
  intro _ _ _ inStep allowed ran
  exact inStep.step allowed.1 (strictly _ _ allowed.2) ran

end Run

theorem flatMap_forwardAppData_of_isEmpty {heartbeats : List BinaryStarSync}
    (empty : ∀ heartbeat ∈ heartbeats, heartbeat.data.isEmpty = true) :
    (heartbeats.flatMap fun heartbeat => forwardAppData heartbeat.data) = [] :=
  flatMap_eq_nil_iff.mpr fun heartbeat member => forwardAppData_of_isEmpty (empty heartbeat member)

/-- If the peer does not start ahead of the active controller, then an equal number acknowledges all
the data that is sent: it has been handed out if the peer is passive whenever data reaches it, and
it or a later copy if a peer that has ignored data is next handed a full copy. -/
theorem acknowledged_data_is_applied (side : Side) (run : SyncRun) :
    (ReachesSync flags side (·.NotAhead side) (PassiveBeforeData side) run →
      AppliedWhenAcknowledged side run) ∧
    (ReachesSync flags side (·.NotAhead side) (CopyBeforeNews side) run →
      CopiedWhenAcknowledged side run) := by
  constructor
  · intro reached reply isHead active _ equal
    have inStep : run.InStep True side :=
      inStep_of_reaches reached fun _ _ holds => ⟨fun _ => holds, fun loose => absurd trivial loose⟩
    obtain ⟨ignored, applied, split, inFlight, forwarded, caughtUp⟩ :=
      (inStep.synced active).acknowledged (mem_of_mem_head? isHead) equal
    have noneIgnored : ∀ missed ∈ ignored, missed.data.isEmpty = true := by
      intro missed isMissed
      by_contra hasData
      exact (caughtUp missed isMissed (eq_false_of_not_eq_true hasData)).1 trivial
    refine (filter_sublist.flatMap _).trans ?_
    rw [split, flatMap_append, flatMap_append, flatMap_forwardAppData_of_isEmpty noneIgnored,
      flatMap_forwardAppData_of_isEmpty inFlight, append_nil]
    exact forwarded
  · intro reached reply isHead active _ equal
    have inStep : run.InStep False side :=
      inStep_of_reaches reached fun _ _ holds => ⟨False.elim, fun _ => holds⟩
    obtain ⟨ignored, applied, split, inFlight, forwarded, caughtUp⟩ :=
      (inStep.synced active).acknowledged (mem_of_mem_head? isHead) equal
    refine ⟨ignored, applied, _, split, inFlight, forwarded, fun missed isMissed hasData => ?_⟩
    exact (caughtUp missed isMissed hasData).2.resolve_right id

/-- The primary has become active; its peer is in the given state and has the given number. -/
def activePrimary (peer : BinaryStarFsmState) (seqNum : Nat) : SyncRun where
  pair := fun
    | .primary => ⟨(BinaryStarApp.start true "1.0").withState .ACTIVE, true, []⟩
    | .backup => ⟨{ (BinaryStarApp.start false "1.0").withState peer with seqNum }, true, []⟩
  sent := []
  told := []

theorem activePrimary_begins {peer : BinaryStarFsmState} (seqNum : Nat)
    (inactive : peer = .BACKUP ∨ peer = .PASSIVE) : (activePrimary peer seqNum).Begins .primary := by
  refine ⟨?_, ?_, ?_, ?_, rfl, ?_, rfl, rfl, rfl⟩
  · intro controller
    cases controller <;> rfl
  · intro controller
    cases controller <;> rfl
  · intro controller
    cases controller with
    | primary => nofun
    | backup =>
      rcases inactive with rfl | rfl
      · nofun
      · nofun
  · intro controller
    cases controller <;> rfl
  · rcases inactive with rfl | rfl
    · nofun
    · nofun

/-- An update, in the first of two heartbeats that are sent before the peer has answered. -/
def ignoredUpdate : List PairAction :=
  [.setAppData .primary (.controllerConfig "config"), .heartbeat .primary, .heartbeat .primary,
    .deliver .backup 0, .deliver .backup 0, .heartbeat .backup]

def staleNumber : List PairAction :=
  [.heartbeat .backup, .setAppData .primary (.controllerConfig "config"), .heartbeat .primary]

def BstarNotice.isAppData : BstarNotice → Bool
  | .topologyAppData _ | .configAppData _ => true
  | .brokerFsm _ | .getAppData | .switchController => false

/-- The active controller reads its own number from a peer that has handed out no data. -/
def SyncRun.losesData (side : Side) (run : SyncRun) : Bool :=
  (run.pair side).app.state = .ACTIVE && !run.told.any BstarNotice.isAppData &&
    (run.pair side).inbox.head?.any fun reply =>
      reply.state = .PASSIVE && reply.seqNum = (run.pair side).app.seqNum &&
        ((run.sent.filter fun heartbeat => heartbeat.seqNum ≤ reply.seqNum).flatMap
          fun heartbeat => forwardAppData heartbeat.data).any BstarNotice.isAppData

theorem SyncRun.not_applied {side : Side} {run : SyncRun} (loses : run.losesData side = true) :
    ¬ AppliedWhenAcknowledged side run := by
  intro applied
  simp only [losesData, and_eq_true, decide_eq_true_eq, not_eq_true', Option.any_eq_true] at loses
  obtain ⟨⟨active, nothingTold⟩, reply, isHead, ⟨passive, equal⟩, dataSent⟩ := loses
  obtain ⟨notice, isSent, isData⟩ := any_eq_true.mp dataSent
  have isTold := (applied reply isHead active passive equal).subset isSent
  exact nomatch nothingTold.symm.trans (any_eq_true.mpr ⟨notice, isTold, isData⟩)

/-- The update is ignored by a peer that becomes passive, or a stale number acknowledges it while it
is in flight. -/
theorem acknowledged_data_is_applied_fails :
    (∃ run, ReachesSync {} .primary (fun run => (run.pair .backup).app.seqNum = 0)
        (fun _ _ => True) run ∧ (run.pair .backup).inbox.length = 0 ∧
        ¬ AppliedWhenAcknowledged .primary run) ∧
      ∃ run, ReachesSync {} .primary (fun run => (run.pair .backup).app.state = .PASSIVE)
        (fun _ _ => True) run ∧ ¬ AppliedWhenAcknowledged .primary run := by
  constructor
  · have inspected : (Transition.replay (execSync {} .primary) ignoredUpdate
        (activePrimary .BACKUP 0)).map (fun run =>
          ((run.pair .backup).inbox.length, run.losesData .primary)) = some (0, true) := by
      decide
    obtain ⟨run, replayed, views⟩ := Option.map_eq_some_iff.mp inspected
    obtain ⟨empty, loses⟩ := Prod.mk.inj views
    have started := activePrimary_begins 0 (.inl rfl)
    refine ⟨run, (Transition.Reaches.start ⟨started, rfl⟩).replay ?_ replayed, empty,
      SyncRun.not_applied loses⟩
    decide
  · have inspected : (Transition.replay (execSync {} .primary) staleNumber
        (activePrimary .PASSIVE 1)).map (fun run => run.losesData .primary) = some true := by
      decide
    obtain ⟨run, replayed, loses⟩ := Option.map_eq_some_iff.mp inspected
    have started := activePrimary_begins 1 (.inr rfl)
    refine ⟨run, (Transition.Reaches.start ⟨started, rfl⟩).replay ?_ replayed,
      SyncRun.not_applied loses⟩
    decide

def acknowledgedUpdate : List PairAction :=
  [.heartbeat .primary, .deliver .backup 0, .setAppData .primary (.controllerConfig "config"),
    .heartbeat .primary, .deliver .backup 0, .heartbeat .backup]

/-- The peer becomes passive with the update, which is sent again as soon as it has answered. -/
def startUp : List PairAction :=
  [.setAppData .primary (.controllerConfig "config"), .heartbeat .primary, .deliver .backup 0,
    .heartbeat .backup, .deliver .primary 0, .heartbeat .primary, .deliver .backup 0,
    .heartbeat .backup]

/-- The active primary reads its own number, and its peer has handed out data. -/
def SyncRun.Acknowledges (seqNum : Nat) (run : SyncRun) : Prop :=
  ((run.pair .primary).inbox.map fun reply => (reply.state, reply.seqNum)) = [(.PASSIVE, seqNum)] ∧
    (run.pair .primary).app.seqNum = seqNum ∧ run.told.any BstarNotice.isAppData = true

instance (seqNum : Nat) (run : SyncRun) : Decidable (run.Acknowledges seqNum) :=
  inferInstanceAs (Decidable (_ ∧ _))

theorem exists_acknowledged (actions : List PairAction) (seqNum : Nat)
    {allowed : SyncRun → PairAction → Prop}
    (permitted : Transition.Permitted (execSync {} .primary)
      (fun run action => action.Calm ∧ allowed run action) actions (activePrimary .BACKUP 0))
    (inspected : (Transition.replay (execSync {} .primary) actions (activePrimary .BACKUP 0)).map
      (fun run => decide (run.Acknowledges seqNum)) = some true) :
    ∃ run, ReachesSync {} .primary (·.NotAhead .primary) allowed run ∧ run.Acknowledges seqNum := by
  obtain ⟨run, replayed, seen⟩ := Option.map_eq_some_iff.mp inspected
  have started := activePrimary_begins 0 (.inl rfl)
  exact ⟨run, (Transition.Reaches.start ⟨started, le_refl 0⟩).replay permitted replayed,
    of_decide_eq_true seen⟩

/-- The peer is passive before the update reaches it, or is sent a copy of it; it applies and
acknowledges it. -/
theorem acknowledged_data_is_applied_after_update :
    (∃ run, ReachesSync {} .primary (·.NotAhead .primary) (PassiveBeforeData .primary) run ∧
      run.Acknowledges 1 ∧ AppliedWhenAcknowledged .primary run) ∧
    ∃ run, ReachesSync {} .primary (·.NotAhead .primary) (CopyBeforeNews .primary) run ∧
      run.Acknowledges 2 ∧ CopiedWhenAcknowledged .primary run := by
  constructor
  · have permitted : Transition.Permitted (execSync {} .primary)
        (fun run action => action.Calm ∧ PassiveBeforeData .primary run action)
        acknowledgedUpdate (activePrimary .BACKUP 0) := by
      decide
    obtain ⟨run, reached, acknowledged⟩ :=
      exists_acknowledged acknowledgedUpdate 1 permitted (by decide)
    exact ⟨run, reached, acknowledged, (acknowledged_data_is_applied {} .primary run).1 reached⟩
  · have permitted : Transition.Permitted (execSync {} .primary)
        (fun run action => action.Calm ∧ CopyBeforeNews .primary run action)
        startUp (activePrimary .BACKUP 0) := by
      decide
    obtain ⟨run, reached, acknowledged⟩ := exists_acknowledged startUp 2 permitted (by decide)
    exact ⟨run, reached, acknowledged, (acknowledged_data_is_applied {} .primary run).2 reached⟩

end DataSync

end Terragraph
