import Malachite.Discovery.Basic

namespace Malachite.Peers

/-! The peer-set invariant of discovery: the inbound and outbound peers are
disjoint sets within their limits, and a node with discovery disabled has no
outbound peer.  Each handler keeps it, so every run from `Discovery.new` does.
The limits are those of the configuration the run started with, which no
handler changes. -/

variable {Peer Conn : Type} [DecidableEq Peer]

/-- The invariant, for the configuration `config`. -/
structure PeerSets (config : Config) (discovery : Discovery Peer Conn) : Prop where
  sameConfig : discovery.config = config
  inboundDistinct : discovery.inboundPeers.Nodup
  outboundDistinct : (discovery.outboundPeers.map Prod.fst).Nodup
  disjoint : ∀ peer ∈ discovery.inboundPeers, peer ∉ discovery.outboundPeers.map Prod.fst
  inboundBound : discovery.inboundPeers.length ≤ config.numInboundPeers
  outboundBound : discovery.outboundPeers.length ≤ config.numOutboundPeers
  disabledEmpty : config.enabled = false → discovery.outboundPeers = []

variable {config : Config} {discovery : Discovery Peer Conn}

omit [DecidableEq Peer] in
/-- The invariant reads only the configuration and the two peer sets. -/
theorem PeerSets.congr {other : Discovery Peer Conn} (sets : PeerSets config discovery)
    (sameConfig : other.config = discovery.config) (sameInbound : other.inboundPeers = discovery.inboundPeers)
    (sameOutbound : other.outboundPeers = discovery.outboundPeers) : PeerSets config other := by
  obtain ⟨configured, inboundDistinct, outboundDistinct, disjoint, inboundBound, outboundBound,
    disabledEmpty⟩ := sets
  exact ⟨sameConfig.trans configured, sameInbound ▸ inboundDistinct, sameOutbound ▸ outboundDistinct,
    sameInbound ▸ sameOutbound ▸ disjoint, sameInbound ▸ inboundBound,
    sameOutbound ▸ outboundBound, sameOutbound ▸ disabledEmpty⟩

omit [DecidableEq Peer] in
theorem peerSets_new {Addr : Type} (config : Config) (bootstrapNodes : List Addr) :
    PeerSets config (Discovery.new config bootstrapNodes : Discovery Peer Conn) :=
  ⟨rfl, List.nodup_nil, List.nodup_nil, by simp [Discovery.new], by simp [Discovery.new],
    by simp [Discovery.new], fun _ => rfl⟩

theorem nodup_insertPeer {peers : List Peer} (distinct : peers.Nodup) (peer : Peer) :
    (insertPeer peers peer).Nodup := by
  unfold insertPeer
  split
  · exact distinct
  · next fresh => exact distinct.append (List.nodup_singleton peer) (by simpa using fresh)

theorem length_insertPeer_le (peers : List Peer) (peer : Peer) :
    (insertPeer peers peer).length ≤ peers.length + 1 := by
  unfold insertPeer
  split <;> simp

/-- Adding a peer outside both sets to the outbound ones, below the limit. -/
theorem PeerSets.addOutbound (sets : PeerSets config discovery) (enabled : config.enabled = true)
    {peer : Peer} (notInbound : peer ∉ discovery.inboundPeers)
    (room : discovery.outboundPeers.length < config.numOutboundPeers) (state : OutboundState) :
    PeerSets config { discovery with outboundPeers := KeyMap.insert discovery.outboundPeers peer state } := by
  refine ⟨sets.sameConfig, sets.inboundDistinct, KeyMap.nodup_keys_insert sets.outboundDistinct _ _,
    fun other member => ?_, sets.inboundBound, ?_, fun disabled => by simp [enabled] at disabled⟩
  · have otherPeer : other ≠ peer := fun same => notInbound (same ▸ member)
    rw [KeyMap.keys_insert]
    split <;> simp [sets.disjoint other member, otherPeer]
  · have grows := KeyMap.length_insert_le discovery.outboundPeers peer state
    dsimp only
    omega

/-- Dropping a peer from the outbound ones. -/
theorem PeerSets.removeOutbound (sets : PeerSets config discovery) (peer : Peer) :
    PeerSets config
      { discovery with outboundPeers := KeyMap.retain discovery.outboundPeers fun other => other != peer } := by
  refine ⟨sets.sameConfig, sets.inboundDistinct,
    KeyMap.nodup_keys_retain sets.outboundDistinct (fun other => other != peer),
    fun other member => ?_, sets.inboundBound, ?_, fun disabled => ?_⟩
  · rw [KeyMap.keys_retain]
    exact fun kept => sets.disjoint other member (List.mem_of_mem_filter kept)
  · exact Nat.le_trans (List.length_filter_le _ _) sets.outboundBound
  · simp [sets.disabledEmpty disabled, KeyMap.retain]

/-- Dropping a peer from the inbound ones. -/
theorem PeerSets.removeInbound (sets : PeerSets config discovery) (peer : Peer) :
    PeerSets config { discovery with inboundPeers := discovery.inboundPeers.erase peer } :=
  ⟨sets.sameConfig, sets.inboundDistinct.erase peer, sets.outboundDistinct,
    fun other member => sets.disjoint other (List.mem_of_mem_erase member),
    Nat.le_trans List.length_erase_le sets.inboundBound, sets.outboundBound,
    sets.disabledEmpty⟩

/-- Adding a peer that is not outbound to the inbound ones, below the limit. -/
theorem PeerSets.addInbound (sets : PeerSets config discovery) {peer : Peer}
    (notOutbound : peer ∉ discovery.outboundPeers.map Prod.fst)
    (room : discovery.inboundPeers.length < config.numInboundPeers) :
    PeerSets config { discovery with inboundPeers := insertPeer discovery.inboundPeers peer } := by
  refine ⟨sets.sameConfig, nodup_insertPeer sets.inboundDistinct peer, sets.outboundDistinct,
    fun other member => ?_, ?_, sets.outboundBound, sets.disabledEmpty⟩
  · unfold insertPeer at member
    split at member
    · exact sets.disjoint other member
    · rcases List.mem_append.mp member with held | added
      · exact sets.disjoint other held
      · rw [List.mem_singleton.mp added]
        exact notOutbound
  · have grows := length_insertPeer_le discovery.inboundPeers peer
    dsimp only
    omega

section Handlers

variable (selector : Selector Peer) (view : ControllerView Peer)

theorem PeerSets.selectOutboundPeers (sets : PeerSets config discovery)
    (enabled : config.enabled = true) : PeerSets config (discovery.selectOutboundPeers selector) := by
  dsimp only [Discovery.selectOutboundPeers]
  split
  · exact sets
  · next peers chosen =>
      obtain ⟨-, fewEnough, -⟩ := selector.sound _ _ _ peers chosen
      have grows := KeyMap.length_foldl_insert_le peers discovery.outboundPeers .pending
      have configured : discovery.config.numOutboundPeers = config.numOutboundPeers := by
        rw [sets.sameConfig]
      refine ⟨sets.sameConfig, sets.inboundDistinct.filter _,
        KeyMap.nodup_keys_foldl_insert peers sets.outboundDistinct _, fun peer member => ?_,
        Nat.le_trans (List.length_filter_le _ _) sets.inboundBound, ?_,
        fun disabled => by simp [enabled] at disabled⟩
      · -- the inbound peers are filtered against the new outbound set
        simpa using (List.mem_filter.mp member).2
      · have within := sets.outboundBound
        dsimp only
        omega

theorem PeerSets.adjustPeers (sets : PeerSets config discovery) :
    PeerSets config (discovery.adjustPeers selector) := by
  unfold Discovery.adjustPeers
  split
  · next enabled =>
      exact sets.selectOutboundPeers selector (by rw [← sets.sameConfig]; exact enabled)
  · exact sets

theorem PeerSets.makeExtensionStep (sets : PeerSets config discovery) :
    PeerSets config (discovery.makeExtensionStep selector view) := by
  unfold Discovery.makeExtensionStep
  split
  · exact sets
  · split
    · split
      · dsimp only
        split
        · exact sets
        · exact (sets.adjustPeers selector).congr rfl rfl rfl
      · exact sets
    · exact sets

theorem PeerSets.initiateExtensionWithTarget (sets : PeerSets config discovery) (target : Nat) :
    PeerSets config (discovery.initiateExtensionWithTarget selector view target) := by
  unfold Discovery.initiateExtensionWithTarget
  split
  · exact sets.congr rfl rfl rfl
  · have extending : PeerSets config { discovery with state := .extending target } :=
      sets.congr rfl rfl rfl
    exact extending.makeExtensionStep selector view

/-- Repairing: an inbound peer is upgraded, or a selected peer added, while
there is room; the case with no inbound peer to upgrade relies on the sets
being disjoint, which leaves no inbound peer at all. -/
theorem PeerSets.repairOutboundPeers (sets : PeerSets config discovery) :
    PeerSets config (discovery.repairOutboundPeers selector view) := by
  unfold Discovery.repairOutboundPeers
  split
  · exact sets
  · next guard =>
      have ready : discovery.isEnabled = true ∧
          discovery.outboundPeers.length < discovery.config.numOutboundPeers := by
        simpa using guard
      have enabled : config.enabled = true := by
        rw [← sets.sameConfig]
        exact ready.1
      have room : discovery.outboundPeers.length < config.numOutboundPeers := by
        rw [← sets.sameConfig]
        exact ready.2
      split
      · next peer found =>
          have member := List.mem_of_find?_eq_some found
          have notOutbound : peer ∉ discovery.outboundPeers.map Prod.fst := by
            simpa [Discovery.isOutbound] using List.find?_some found
          have upgraded := (sets.removeInbound peer).addOutbound enabled
            (List.Nodup.not_mem_erase sets.inboundDistinct) room .confirmed
          exact upgraded.congr rfl rfl rfl
      · next noneFree =>
          have noInbound : discovery.inboundPeers = [] := by
            apply List.eq_nil_iff_forall_not_mem.mpr
            intro peer member
            have outbound := List.find?_eq_none.mp noneFree peer member
            simp only [Discovery.isOutbound, Bool.not_eq_true', decide_eq_false_iff_not,
              not_not] at outbound
            exact sets.disjoint peer member outbound
          split
          · split
            · exact sets.addOutbound enabled (by simp [noInbound]) room .pending
            · exact sets
          · exact sets.initiateExtensionWithTarget selector view 1

theorem PeerSets.handleConnectRequest (sets : PeerSets config discovery) (peer : Peer) :
    PeerSets config (discovery.handleConnectRequest peer).1 := by
  unfold Discovery.handleConnectRequest
  split
  · exact sets
  · split
    · exact sets
    · split
      · next notOutbound _ room =>
          exact sets.addInbound (by simpa [Discovery.isOutbound] using notOutbound)
            (by rw [← sets.sameConfig]; exact room)
      · exact sets

theorem PeerSets.handleConnectRejection (sets : PeerSets config discovery) (peer : Peer) :
    PeerSets config (discovery.handleConnectRejection selector view peer) := by
  dsimp only [Discovery.handleConnectRejection]
  split
  · exact (sets.removeOutbound peer).repairOutboundPeers selector view
  · exact sets.removeOutbound peer

theorem PeerSets.handleConnectResponse (sets : PeerSets config discovery) (peer : Peer)
    (accepted : Bool) : PeerSets config (discovery.handleConnectResponse selector view peer accepted) := by
  unfold Discovery.handleConnectResponse
  split
  · split
    · next state found =>
        -- confirming a pending peer rewrites its entry and keeps the keys
        have present : peer ∈ discovery.outboundPeers.map Prod.fst := by
          by_contra absent
          rw [KeyMap.get?_eq_none_iff.mpr absent] at found
          cases found
        have sameKeys := KeyMap.keys_insert discovery.outboundPeers peer OutboundState.confirmed
        rw [if_pos present] at sameKeys
        refine ⟨sets.sameConfig, sets.inboundDistinct, sameKeys ▸ sets.outboundDistinct,
          fun other member => sameKeys ▸ sets.disjoint other member, sets.inboundBound, ?_,
          fun disabled => ?_⟩
        · exact (KeyMap.length_insert_of_get? found _).symm ▸ sets.outboundBound
        · rw [sets.disabledEmpty disabled] at present
          cases present
    · exact sets
  · exact sets.handleConnectRejection selector view peer

theorem PeerSets.handleFailedConnectRequest (sets : PeerSets config discovery)
    (removed : Option (RequestData Peer)) :
    PeerSets config (discovery.handleFailedConnectRequest selector view removed) := by
  unfold Discovery.handleFailedConnectRequest
  split
  · exact sets
  · split
    · exact sets
    · exact sets.handleConnectRejection selector view _

theorem PeerSets.connectRequestPeer (sets : PeerSets config discovery)
    (requestData : RequestData Peer) : PeerSets config (discovery.connectRequestPeer requestData) := by
  unfold Discovery.connectRequestPeer
  split
  · exact sets.congr rfl rfl rfl
  · exact sets

theorem PeerSets.classifyConnection (sets : PeerSets config discovery) (peerId : Peer)
    (alreadyConnected : Bool) :
    PeerSets config (discovery.classifyConnection selector view peerId alreadyConnected).1 := by
  unfold Discovery.classifyConnection
  split
  · next enabled =>
      have enabledConfig : config.enabled = true := by rw [← sets.sameConfig]; exact enabled
      split
      · exact sets
      · split
        · exact sets
        · split
          · next notInbound guard =>
              have room : discovery.outboundPeers.length < config.numOutboundPeers := by
                simp only [Bool.and_eq_true, decide_eq_true_eq] at guard
                rw [← sets.sameConfig]
                exact guard.2
              exact sets.addOutbound enabledConfig (by simpa [Discovery.isInbound] using notInbound)
                room .pending
          · split
            · exact sets.makeExtensionStep selector view
            · exact sets
  · next disabled =>
      split
      · next room =>
          -- with discovery disabled there is no outbound peer
          have empty : discovery.outboundPeers = [] :=
            sets.disabledEmpty (by rw [← sets.sameConfig]; simpa [Discovery.isEnabled] using disabled)
          exact sets.addInbound (by simp [empty]) (by rw [← sets.sameConfig]; exact room)
      · exact sets

theorem PeerSets.handleNewPeer [DecidableEq Conn] (sets : PeerSets config discovery) (connectionId : Conn)
    (peerId : Peer) : PeerSets config (discovery.handleNewPeer selector view connectionId peerId).1 := by
  unfold Discovery.handleNewPeer
  split
  · exact sets
  · dsimp only
    split
    · split
      · exact sets.congr rfl rfl rfl
      · refine PeerSets.classifyConnection selector view ?_ peerId true
        exact sets.congr rfl rfl rfl
    · refine PeerSets.classifyConnection selector view ?_ peerId false
      exact sets.congr rfl rfl rfl

/-- Dropping a connection moves no peer. -/
theorem removeConnection_sets [DecidableEq Conn] (discovery : Discovery Peer Conn) (peerId : Peer) (connectionId : Conn) :
    (discovery.removeConnection peerId connectionId).1.config = discovery.config ∧
      (discovery.removeConnection peerId connectionId).1.inboundPeers = discovery.inboundPeers ∧
      (discovery.removeConnection peerId connectionId).1.outboundPeers = discovery.outboundPeers := by
  unfold Discovery.removeConnection
  split
  · split
    · dsimp only
      split <;> exact ⟨rfl, rfl, rfl⟩
    · exact ⟨rfl, rfl, rfl⟩
  · exact ⟨rfl, rfl, rfl⟩

theorem PeerSets.forgetClosedPeer (sets : PeerSets config discovery) (peerId : Peer)
    (wasLastConnection : Bool) :
    PeerSets config (discovery.forgetClosedPeer selector view peerId wasLastConnection) := by
  unfold Discovery.forgetClosedPeer
  cases wasLastConnection with
  | false =>
      simp only [Bool.false_eq_true, if_false]
      split
      · split
        · exact sets.repairOutboundPeers selector view
        · exact sets
      · split <;> exact sets
  | true =>
      simp only [if_true]
      split
      · -- the outbound peer is dropped, then replaced
        have dropped := sets.removeOutbound peerId
        split
        · exact dropped.repairOutboundPeers selector view
        · exact dropped
      · split
        · exact sets.removeInbound peerId
        · exact sets

theorem PeerSets.handleClosedConnection [DecidableEq Conn] (sets : PeerSets config discovery)
    (peerId : Peer) (connectionId : Conn) :
    PeerSets config (discovery.handleClosedConnection selector view peerId connectionId) := by
  obtain ⟨sameConfig, sameInbound, sameOutbound⟩ := removeConnection_sets discovery peerId connectionId
  have removed := sets.congr sameConfig sameInbound sameOutbound
  unfold Discovery.handleClosedConnection
  generalize discovery.removeConnection peerId connectionId = result at removed
  obtain ⟨afterRemove, wasLast⟩ := result
  have moved := removed.forgetClosedPeer selector view peerId wasLast
  dsimp only
  split
  · exact moved.congr rfl rfl rfl
  · exact moved

theorem PeerSets.handleSuccessfulBootstrap (sets : PeerSets config discovery) :
    PeerSets config (discovery.handleSuccessfulBootstrap selector view) := by
  unfold Discovery.handleSuccessfulBootstrap
  split
  · split
    · exact sets.initiateExtensionWithTarget selector view _
    · exact (sets.adjustPeers selector).congr rfl rfl rfl
  · exact sets

omit [DecidableEq Peer] in
theorem PeerSets.handleFailedBootstrap (sets : PeerSets config discovery) :
    PeerSets config discovery.handleFailedBootstrap := by
  unfold Discovery.handleFailedBootstrap
  split
  · exact sets.congr rfl rfl rfl
  · exact sets

theorem PeerSets.handle [DecidableEq Conn] (sets : PeerSets config discovery) (event : Event Peer Conn) :
    PeerSets config (discovery.handle selector view event) := by
  cases event with
  | newPeer connectionId peerId => exact sets.handleNewPeer selector view connectionId peerId
  | connectRequest peer => exact sets.handleConnectRequest peer
  | connectResponse peer accepted => exact sets.handleConnectResponse selector view peer accepted
  | failedConnectRequest removed => exact sets.handleFailedConnectRequest selector view removed
  | connectRequestPeer requestData => exact sets.connectRequestPeer requestData
  | closedConnection peerId connectionId =>
      exact sets.handleClosedConnection selector view peerId connectionId
  | bootstrapSucceeded => exact sets.handleSuccessfulBootstrap selector view
  | bootstrapFailed => exact sets.handleFailedBootstrap
  | extensionStep => exact sets.makeExtensionStep selector view
  | adjustPeers => exact sets.adjustPeers selector
  | repairOutboundPeers => exact sets.repairOutboundPeers selector view

end Handlers

theorem PeerSets.run [DecidableEq Conn] (sets : PeerSets config discovery)
    (steps : List (Selector Peer × ControllerView Peer × Event Peer Conn)) :
    PeerSets config (discovery.run steps) := by
  induction steps generalizing discovery with
  | nil => exact sets
  | cons step rest ih =>
      obtain ⟨selector, view, event⟩ := step
      exact ih (sets.handle selector view event)

/-- From `Discovery::new`, after any events, with selectors that keep their
promise: the inbound and outbound peers are disjoint sets, each within the
limit of the configuration. -/
theorem peer_sets_invariant [DecidableEq Conn] {Addr : Type} (config : Config)
    (bootstrapNodes : List Addr) (steps : List (Selector Peer × ControllerView Peer × Event Peer Conn)) :
    let discovery := (Discovery.new config bootstrapNodes : Discovery Peer Conn).run steps
    (∀ peer ∈ discovery.inboundPeers, peer ∉ discovery.outboundPeers.map Prod.fst) ∧
      discovery.inboundPeers.Nodup ∧ (discovery.outboundPeers.map Prod.fst).Nodup ∧
      discovery.inboundPeers.length ≤ config.numInboundPeers ∧
      discovery.outboundPeers.length ≤ config.numOutboundPeers := by
  intro discovery
  have sets : PeerSets config discovery := (peerSets_new config bootstrapNodes).run steps
  exact ⟨sets.disjoint, sets.inboundDistinct, sets.outboundDistinct, sets.inboundBound,
    sets.outboundBound⟩

end Malachite.Peers
