import Malachite.Lib.KeyMap

namespace Malachite.Peers

/-! Peer management of the discovery crate (`discovery/src/handlers`): which
connected peers are kept as outbound peers (those this node asked for a
persistent connection) and as inbound peers (those that asked this node).

The model keeps the fields of `Discovery` that the handlers read to move
peers between the sets.  The maps and sets are lists with distinct keys;
where the source iterates over a `HashSet` in no fixed order, the model takes
the list order.  Three things stay outside:
* the selector, which keeps its own state and reads the swarm: each handler is
  given a `Selector`, whose field states what its documentation promises;
* the controller's queues and in-progress requests: a handler is given what it
  reads of them (`ControllerView`, and the request a failure removes);
* the swarm, the metrics and the bootstrap nodes' dial history, which no
  handler reads to move peers. -/

inductive BootstrapProtocol where
  | kademlia
  | full
deriving DecidableEq, Repr

/-- The configuration fields the modelled handlers read. -/
structure Config where
  enabled : Bool
  bootstrapProtocol : BootstrapProtocol
  numOutboundPeers : Nat
  numInboundPeers : Nat
  maxConnectionsPerPeer : Nat
  connectRequestMaxRetries : Nat
deriving DecidableEq, Repr

inductive State where
  | bootstrapping
  | extending (target : Nat)
  | idle
deriving DecidableEq, Repr

inductive OutboundState where
  | pending
  | confirmed
deriving DecidableEq, Repr

inductive Selection (α : Type) where
  | exactly (peers : List α)
  | only (peers : List α)
  | none
deriving DecidableEq, Repr

/-- The peers of a selection that returned some. -/
def Selection.chosen {α : Type} : Selection α → Option (List α)
  | .exactly peers => some peers
  | .only peers => some peers
  | .none => Option.none

variable {Peer Conn : Type} [DecidableEq Peer] [DecidableEq Conn]

/-- `try_select_n_outbound_candidates` at one call: given the discovered peers,
the excluded ones and `n`, it returns distinct discovered peers that are not
excluded, at most `n` of them. -/
structure Selector (Peer : Type) where
  select : List Peer → List Peer → Nat → Selection Peer
  sound : ∀ discovered excluded n peers, (select discovered excluded n).chosen = some peers →
    peers.Nodup ∧ peers.length ≤ n ∧ ∀ peer ∈ peers, peer ∈ discovered ∧ peer ∉ excluded

/-- What `make_extension_step` reads of the controller. -/
structure ControllerView (Peer : Type) where
  /-- `is_idle()`, with the dial and peers-request queues empty. -/
  idle : Bool
  /-- `peers_request.is_done_on`. -/
  peersRequestDone : Peer → Bool

structure RequestData (Peer : Type) where
  peerId : Peer
  retryCount : Nat
deriving DecidableEq, Repr

variable (Peer Conn) in
structure Discovery where
  config : Config
  state : State
  /-- The keys of `discovered_peers`; the identify info is not read. -/
  discoveredPeers : List Peer
  activeConnections : List (Peer × List Conn)
  outboundPeers : List (Peer × OutboundState)
  inboundPeers : List Peer
  /-- The done set of `controller.connect_request`. -/
  connectRequestDone : List Peer

/-- `HashSet::insert`. -/
def insertPeer (peers : List Peer) (peer : Peer) : List Peer :=
  if peer ∈ peers then peers else peers ++ [peer]

namespace Discovery

def new {Addr : Type} (config : Config) (bootstrapNodes : List Addr) : Discovery Peer Conn :=
  { config,
    state :=
      if config.enabled && bootstrapNodes.isEmpty then .idle
      else if config.enabled then
        match config.bootstrapProtocol with
        | .kademlia => .bootstrapping
        | .full => .extending config.numOutboundPeers
      else .idle,
    discoveredPeers := [], activeConnections := [], outboundPeers := [], inboundPeers := [],
    connectRequestDone := [] }

def isEnabled (discovery : Discovery Peer Conn) : Bool := discovery.config.enabled

def isOutbound (discovery : Discovery Peer Conn) (peer : Peer) : Bool :=
  decide (peer ∈ discovery.outboundPeers.map Prod.fst)

def isInbound (discovery : Discovery Peer Conn) (peer : Peer) : Bool :=
  decide (peer ∈ discovery.inboundPeers)

/-- Peers that are already outbound or were already asked to be. -/
def getExcludedPeers (discovery : Discovery Peer Conn) : List Peer :=
  discovery.discoveredPeers.filter fun peer =>
    discovery.isOutbound peer || decide (peer ∈ discovery.connectRequestDone)

def selectOutboundPeers (selector : Selector Peer) (discovery : Discovery Peer Conn) :
    Discovery Peer Conn :=
  let n := discovery.config.numOutboundPeers - discovery.outboundPeers.length
  match (selector.select discovery.discoveredPeers discovery.getExcludedPeers n).chosen with
  | none => discovery
  | some peers =>
      let outbound := peers.foldl (fun outbound peer => KeyMap.insert outbound peer .pending)
        discovery.outboundPeers
      -- the source's safety check: no inbound peer stays among the outbound ones
      { discovery with
        outboundPeers := outbound,
        inboundPeers := discovery.inboundPeers.filter fun peer =>
          !decide (peer ∈ outbound.map Prod.fst) }

/-- `adjust_peers`; the ephemeral connections it closes are not modelled. -/
def adjustPeers (selector : Selector Peer) (discovery : Discovery Peer Conn) :
    Discovery Peer Conn :=
  if discovery.isEnabled then discovery.selectOutboundPeers selector else discovery

def makeExtensionStep (selector : Selector Peer) (view : ControllerView Peer)
    (discovery : Discovery Peer Conn) : Discovery Peer Conn :=
  if !discovery.isEnabled then discovery
  else
    match discovery.state with
    | .extending target =>
        if view.idle then
          let unrequested := (discovery.activeConnections.filter fun entry =>
            !decide (entry.1 ∈ discovery.connectRequestDone)).length
          if unrequested < target &&
              (discovery.discoveredPeers.find? fun peer => !view.peersRequestDone peer).isSome then
            -- a peers request is queued
            discovery
          else { discovery.adjustPeers selector with state := .idle }
        else discovery
    | _ => discovery

def initiateExtensionWithTarget (selector : Selector Peer) (view : ControllerView Peer)
    (discovery : Discovery Peer Conn) (target : Nat) : Discovery Peer Conn :=
  match discovery.state with
  | .extending current => { discovery with state := .extending (current + target) }
  | _ => makeExtensionStep selector view { discovery with state := .extending target }

def repairOutboundPeers (selector : Selector Peer) (view : ControllerView Peer)
    (discovery : Discovery Peer Conn) : Discovery Peer Conn :=
  if !discovery.isEnabled || discovery.config.numOutboundPeers ≤ discovery.outboundPeers.length then
    discovery
  else
    match discovery.inboundPeers.find? fun peer => !discovery.isOutbound peer with
    | some peer =>
        -- an inbound peer is upgraded to outbound
        { discovery with
          inboundPeers := discovery.inboundPeers.erase peer,
          outboundPeers := KeyMap.insert discovery.outboundPeers peer .confirmed,
          connectRequestDone := insertPeer discovery.connectRequestDone peer }
    | none =>
        match selector.select discovery.discoveredPeers discovery.getExcludedPeers 1 with
        | .exactly peers =>
            match peers.head? with
            | some peer =>
                { discovery with outboundPeers := KeyMap.insert discovery.outboundPeers peer .pending }
            | none => discovery
        | _ => initiateExtensionWithTarget selector view discovery 1

/-- `handle_connect_request`; the flag is the response sent. -/
def handleConnectRequest (discovery : Discovery Peer Conn) (peer : Peer) :
    Discovery Peer Conn × Bool :=
  if discovery.isOutbound peer then (discovery, true)
  else if discovery.isInbound peer then (discovery, true)
  else if discovery.inboundPeers.length < discovery.config.numInboundPeers then
    ({ discovery with inboundPeers := insertPeer discovery.inboundPeers peer }, true)
  else (discovery, false)

def handleConnectRejection (selector : Selector Peer) (view : ControllerView Peer)
    (discovery : Discovery Peer Conn) (peer : Peer) : Discovery Peer Conn :=
  let discovery :=
    { discovery with outboundPeers := KeyMap.retain discovery.outboundPeers fun other => other != peer }
  if discovery.isEnabled then discovery.repairOutboundPeers selector view else discovery

def handleConnectResponse (selector : Selector Peer) (view : ControllerView Peer)
    (discovery : Discovery Peer Conn) (peer : Peer) (accepted : Bool) : Discovery Peer Conn :=
  if accepted then
    match KeyMap.get? discovery.outboundPeers peer with
    | some _ => { discovery with outboundPeers := KeyMap.insert discovery.outboundPeers peer .confirmed }
    | none => discovery
  else discovery.handleConnectRejection selector view peer

/-- `handle_failed_connect_request`, given the request `remove_in_progress`
returned; a retried request goes back to the controller's queue. -/
def handleFailedConnectRequest (selector : Selector Peer) (view : ControllerView Peer)
    (discovery : Discovery Peer Conn) (removed : Option (RequestData Peer)) : Discovery Peer Conn :=
  match removed with
  | none => discovery
  | some requestData =>
      if requestData.retryCount < discovery.config.connectRequestMaxRetries then discovery
      else discovery.handleConnectRejection selector view requestData.peerId

/-- `connect_request_peer`: what it records before sending the request. -/
def connectRequestPeer (discovery : Discovery Peer Conn) (requestData : RequestData Peer) :
    Discovery Peer Conn :=
  if !decide (requestData.peerId ∈ discovery.connectRequestDone) || requestData.retryCount != 0 then
    { discovery with
      connectRequestDone := insertPeer discovery.connectRequestDone requestData.peerId }
  else discovery

/-- The part of `handle_new_peer` after the connection is recorded: whether
the peer is outbound, inbound or ephemeral. -/
def classifyConnection (selector : Selector Peer) (view : ControllerView Peer)
    (discovery : Discovery Peer Conn) (peerId : Peer) (alreadyConnected : Bool) :
    Discovery Peer Conn × Bool :=
  if discovery.isEnabled then
    if discovery.isOutbound peerId then (discovery, alreadyConnected)
    else if discovery.isInbound peerId then (discovery, alreadyConnected)
    else if discovery.state = .idle &&
        discovery.outboundPeers.length < discovery.config.numOutboundPeers then
      ({ discovery with outboundPeers := KeyMap.insert discovery.outboundPeers peerId .pending },
        alreadyConnected)
    else
      -- an ephemeral connection, closed later
      match discovery.state with
      | .extending _ => (discovery.makeExtensionStep selector view, alreadyConnected)
      | _ => (discovery, alreadyConnected)
  else
    -- with discovery disabled every peer is inbound, up to the limit
    if discovery.inboundPeers.length < discovery.config.numInboundPeers then
      ({ discovery with inboundPeers := insertPeer discovery.inboundPeers peerId }, alreadyConnected)
    else (discovery, true)

/-- `handle_new_peer`; the flag is whether another connection to the peer exists. -/
def handleNewPeer (selector : Selector Peer) (view : ControllerView Peer)
    (discovery : Discovery Peer Conn) (connectionId : Conn) (peerId : Peer) :
    Discovery Peer Conn × Bool :=
  if (KeyMap.get? discovery.activeConnections peerId).any fun ids => decide (connectionId ∈ ids) then
    (discovery, true)
  else
    let discovery := { discovery with discoveredPeers := insertPeer discovery.discoveredPeers peerId }
    match KeyMap.get? discovery.activeConnections peerId with
    | some ids =>
        if discovery.config.maxConnectionsPerPeer ≤ ids.length then (discovery, true)
        else
          classifyConnection selector view
            { discovery with
              activeConnections := KeyMap.insert discovery.activeConnections peerId (ids ++ [connectionId]) }
            peerId true
    | none =>
        classifyConnection selector view
          { discovery with
            activeConnections := KeyMap.insert discovery.activeConnections peerId [connectionId] }
          peerId false

/-- The connection bookkeeping of `handle_closed_connection`: the connection
is dropped, and the flag says whether it was the peer's last. -/
def removeConnection (discovery : Discovery Peer Conn) (peerId : Peer) (connectionId : Conn) :
    Discovery Peer Conn × Bool :=
  match KeyMap.get? discovery.activeConnections peerId with
  | some ids =>
      if connectionId ∈ ids then
        let remaining := ids.filter fun id => id != connectionId
        if remaining.isEmpty then
          ({ discovery with
              activeConnections := KeyMap.retain discovery.activeConnections fun peer => peer != peerId },
            true)
        else
          ({ discovery with
              activeConnections := KeyMap.insert discovery.activeConnections peerId remaining },
            false)
      else (discovery, false)
  | none => (discovery, false)

/-- What `handle_closed_connection` does to the peer sets: a peer whose last
connection closed leaves its set, and a missing outbound peer is replaced. -/
def forgetClosedPeer (selector : Selector Peer) (view : ControllerView Peer)
    (discovery : Discovery Peer Conn) (peerId : Peer) (wasLastConnection : Bool) :
    Discovery Peer Conn :=
  if discovery.isOutbound peerId then
    let discovery := if wasLastConnection then
        { discovery with
          outboundPeers := KeyMap.retain discovery.outboundPeers fun peer => peer != peerId }
      else discovery
    if discovery.isEnabled then discovery.repairOutboundPeers selector view else discovery
  else if discovery.isInbound peerId then
    if wasLastConnection then { discovery with inboundPeers := discovery.inboundPeers.erase peerId }
    else discovery
  else discovery

def handleClosedConnection (selector : Selector Peer) (view : ControllerView Peer)
    (discovery : Discovery Peer Conn) (peerId : Peer) (connectionId : Conn) : Discovery Peer Conn :=
  let (discovery, wasLastConnection) := discovery.removeConnection peerId connectionId
  let discovery := discovery.forgetClosedPeer selector view peerId wasLastConnection
  -- `cleanup_peer_on_disconnect`; the bootstrap nodes and dial history are not modelled
  if wasLastConnection then { discovery with discoveredPeers := discovery.discoveredPeers.erase peerId }
  else discovery

def handleSuccessfulBootstrap (selector : Selector Peer) (view : ControllerView Peer)
    (discovery : Discovery Peer Conn) : Discovery Peer Conn :=
  if discovery.state = .bootstrapping then
    if discovery.activeConnections.length < discovery.config.numOutboundPeers then
      discovery.initiateExtensionWithTarget selector view discovery.config.numOutboundPeers
    else { discovery.adjustPeers selector with state := .idle }
  else discovery

def handleFailedBootstrap (discovery : Discovery Peer Conn) : Discovery Peer Conn :=
  if discovery.state = .bootstrapping then { discovery with state := .idle } else discovery

end Discovery

variable (Peer Conn) in
/-- The discovery events that move peers: the network events and the calls the
behaviour makes of the handlers above. `extensionStep` is any dial or
peers-request event whose only effect on the peer sets is an extension step. -/
inductive Event where
  | newPeer (connectionId : Conn) (peerId : Peer)
  | connectRequest (peer : Peer)
  | connectResponse (peer : Peer) (accepted : Bool)
  | failedConnectRequest (removed : Option (RequestData Peer))
  | connectRequestPeer (requestData : RequestData Peer)
  | closedConnection (peerId : Peer) (connectionId : Conn)
  | bootstrapSucceeded
  | bootstrapFailed
  | extensionStep
  | adjustPeers
  | repairOutboundPeers

namespace Discovery

def handle (selector : Selector Peer) (view : ControllerView Peer) (discovery : Discovery Peer Conn) :
    Event Peer Conn → Discovery Peer Conn
  | .newPeer connectionId peerId => (discovery.handleNewPeer selector view connectionId peerId).1
  | .connectRequest peer => (discovery.handleConnectRequest peer).1
  | .connectResponse peer accepted => discovery.handleConnectResponse selector view peer accepted
  | .failedConnectRequest removed => discovery.handleFailedConnectRequest selector view removed
  | .connectRequestPeer requestData => discovery.connectRequestPeer requestData
  | .closedConnection peerId connectionId =>
      discovery.handleClosedConnection selector view peerId connectionId
  | .bootstrapSucceeded => discovery.handleSuccessfulBootstrap selector view
  | .bootstrapFailed => discovery.handleFailedBootstrap
  | .extensionStep => discovery.makeExtensionStep selector view
  | .adjustPeers => discovery.adjustPeers selector
  | .repairOutboundPeers => discovery.repairOutboundPeers selector view

/-- Handle the events in order, each with the selector and the controller as
they are at that event. -/
def run (discovery : Discovery Peer Conn) :
    List (Selector Peer × ControllerView Peer × Event Peer Conn) → Discovery Peer Conn
  | [] => discovery
  | (selector, view, event) :: rest => (discovery.handle selector view event).run rest

end Discovery

end Malachite.Peers
