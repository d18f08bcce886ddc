import Malachite.Sync.Window
import Malachite.Lib.KeyMap

/-! The value-sync state machine (`sync/src/state.rs` and `handle.rs`).

The state keeps the requests sent to peers and not yet answered (`inflight_requests`)
and, for each answered request, the ranges of heights that consensus has not yet
verified (`pending_consensus_requests`).  Both maps are association lists that carry
the distinctness of their keys.

A handler runs as a coroutine: each `perform!` yields an effect to the host and waits
for a resume.  The host's resumes are a list taken in order; a handler that yields
when the list is empty is `suspended`, so every run of the model is a finite prefix of
a run of the actor.  State changes made before an error stay, as with the source's
`&mut State`.  The peer scorer is an oracle that picks one of the candidate peers, or
none; scores, metrics and logging are not modelled.
-/

namespace Malachite.Sync

open Span

variable {Peer Req Inbound : Type}

/-- The configuration fields the handlers read. -/
structure Config where
  parallelRequests : Nat
  batchSize : Nat
deriving DecidableEq, Repr

/-- A peer's announced status. -/
structure Status (Peer : Type) where
  peerId : Peer
  tipHeight : Nat
  historyMinHeight : Nat
deriving DecidableEq, Repr

/-- A decided value as sync reads it: the height of its commit certificate. -/
structure RawDecidedValue where
  certificateHeight : Nat
deriving DecidableEq, Repr

structure ValueResponse where
  startHeight : Nat
  values : List RawDecidedValue
deriving DecidableEq, Repr

/-- `ValueResponse::end_height`. -/
def ValueResponse.endHeight (response : ValueResponse) : Option Nat :=
  if response.values.isEmpty then none
  else some (response.startHeight + (response.values.length - 1))

/-- The scorer's weighted draw (`PeerScorer::select_peer` with the state's random number
generator): one of the candidates, or none.  The draw may depend on how many draws came
before. -/
structure PeerScorer (Peer : Type) where
  selectPeer : List Peer → Nat → Option Peer
  selected_mem : ∀ peers draw peer, selectPeer peers draw = some peer → peer ∈ peers

structure State (Peer Req : Type) where
  /-- How many draws the random number generator has made. -/
  draws : Nat
  config : Config
  started : Bool
  tipHeight : Nat
  inflightRequests : List (Req × (Span × Peer))
  pendingConsensusRequests : List (Req × (List Span × Peer))
  peers : List (Peer × Status Peer)
  inflightDistinct : (inflightRequests.map Prod.fst).Nodup
  pendingDistinct : (pendingConsensusRequests.map Prod.fst).Nodup

inductive Effect (Peer Req Inbound : Type) where
  | broadcastStatus (height : Nat)
  | sendValueRequest (peer : Peer) (range : Span)
  | sendValueResponse (requestId : Inbound) (response : ValueResponse)
  | getDecidedValues (requestId : Inbound) (range : Span)
  | notifyConsensusToProcessSyncResponse (requestId : Req) (peer : Peer) (response : ValueResponse)

inductive Resume (Req : Type) where
  | continue
  | valueRequestId (requestId : Option Req)
deriving DecidableEq, Repr

/-- The resume an effect waits for, as `Error::UnexpectedResume` names it. -/
inductive Expected where
  | continue
  | valueRequestId
deriving DecidableEq, Repr

inductive Error (Req : Type) where
  | unexpectedResume (resume : Resume Req) (expected : Expected)
deriving DecidableEq, Repr

/-- How a handler ends.  `spinning` is a `loop` of `request_values` that would run again
on the same state forever. -/
inductive Outcome (Req : Type) where
  | done
  | failed (error : Error Req)
  | suspended
  | spinning
deriving DecidableEq, Repr

/-- What a handler leaves: the state, the effects it yielded, the resumes it has not used. -/
structure Handled (Peer Req Inbound : Type) where
  state : State Peer Req
  effects : List (Effect Peer Req Inbound)
  resumes : List (Resume Req)
  outcome : Outcome Req

inductive InflightError (Peer Req : Type) where
  | unknownRequestId (requestId : Req)
  | wrongPeer (expectedPeerId actualPeerId : Peer)
deriving DecidableEq, Repr

/-- The inputs of `handle`.  A request is represented by the range it asks for. -/
inductive Input (Peer Req Inbound : Type) where
  | tick
  | status (status : Status Peer)
  | startedHeight (height : Nat)
  | decided (height : Nat)
  | valueRequest (requestId : Inbound) (peerId : Peer) (range : Span)
  | valueResponse (requestId : Req) (peerId : Peer) (response : Option ValueResponse)
  | gotDecidedValues (requestId : Inbound) (range : Span) (values : List RawDecidedValue)
  | syncRequestTimedOut (requestId : Req) (peerId : Peer) (range : Span)
  | invalidValue (peerId : Peer) (height : Nat)
  | valueProcessingError (peerId : Peer) (height : Nat)

namespace State

def new (config : Config) : State Peer Req :=
  ⟨0, config, false, 0, [], [], [], List.nodup_nil, List.nodup_nil⟩

/-- Every range the state has requested or holds for consensus, collected as
`find_range_of_heights_to_request` collects them. -/
def ranges (state : State Peer Req) : List Span :=
  state.inflightRequests.map (fun entry => entry.2.1) ++
    state.pendingConsensusRequests.flatMap fun entry => entry.2.1

/-- `max_parallel_requests`: a configured zero counts as one. -/
def maxParallelRequests (state : State Peer Req) : Nat := max 1 state.config.parallelRequests

/-- `current_number_of_heights`. -/
def currentNumberOfHeights (state : State Peer Req) : Nat :=
  (state.inflightRequests.map fun entry => entry.2.1.stop - entry.2.1.start + 1).sum +
    (state.pendingConsensusRequests.map fun entry =>
      (entry.2.1.map fun range => range.stop - range.start + 1).sum).sum

/-- `trim_validated_heights`. -/
def trimValidatedHeights (state : State Peer Req) (range : Span) : Span :=
  ⟨max (state.tipHeight + 1) range.start, range.stop⟩

/-- `find_range_of_heights_to_request`. -/
def findRangeOfHeightsToRequest (state : State Peer Req) (upToHeight : Nat) : Option Span :=
  computeFreeWindow state.tipHeight upToHeight state.config.batchSize state.ranges

section Maps

variable [DecidableEq Peer] [LinearOrder Req]

def updateStatus (state : State Peer Req) (status : Status Peer) : State Peer Req :=
  { state with peers := KeyMap.insert state.peers status.peerId status }

/-- `inflight_requests.insert`. -/
def storeInflight (state : State Peer Req) (requestId : Req) (range : Span) (peer : Peer) :
    State Peer Req :=
  { state with
    inflightRequests := KeyMap.insert state.inflightRequests requestId (range, peer)
    inflightDistinct := KeyMap.nodup_keys_insert state.inflightDistinct requestId _ }

/-- `inflight_requests.remove`. -/
def removeInflight (state : State Peer Req) (requestId : Req) : State Peer Req :=
  { state with
    inflightRequests := KeyMap.retain state.inflightRequests fun other => other != requestId
    inflightDistinct := KeyMap.nodup_keys_retain state.inflightDistinct _ }

/-- `pending_consensus_requests.insert`. -/
def storePending (state : State Peer Req) (requestId : Req) (ranges : List Span) (peer : Peer) :
    State Peer Req :=
  { state with
    pendingConsensusRequests := KeyMap.insert state.pendingConsensusRequests requestId (ranges, peer)
    pendingDistinct := KeyMap.nodup_keys_insert state.pendingDistinct requestId _ }

/-- `pending_consensus_requests.remove`. -/
def removePending (state : State Peer Req) (requestId : Req) : State Peer Req :=
  { state with
    pendingConsensusRequests :=
      KeyMap.retain state.pendingConsensusRequests fun other => other != requestId
    pendingDistinct := KeyMap.nodup_keys_retain state.pendingDistinct _ }

/-- What `prune_pending_consensus_requests` keeps of one request's ranges: excise the
height, then keep the ranges that end above it. -/
def pruneRanges (ranges : List Span) (upToHeight : Nat) : List Span :=
  (exciseHeight ranges upToHeight).1.filter fun range => upToHeight < range.stop

/-- `prune_pending_consensus_requests`: requests left without ranges are dropped. -/
def prunePendingConsensusRequests (state : State Peer Req) (upToHeight : Nat) : State Peer Req :=
  { state with
    pendingConsensusRequests :=
      (KeyMap.mapValues state.pendingConsensusRequests fun _ value =>
        (pruneRanges value.1 upToHeight, value.2)).filter fun entry => !entry.2.1.isEmpty
    pendingDistinct := KeyMap.nodup_keys_filter
      (by simpa using state.pendingDistinct) fun (entry : Req × (List Span × Peer)) =>
        !entry.2.1.isEmpty }

/-- `filter_peers_by_range`: the peers that hold the whole range, each with the range, or
else those that hold a prefix of it, each with the part it holds. -/
def filterPeersByRange (peers : List (Peer × Status Peer)) (range : Span) (except : Option Peer) :
    List (Peer × Span) :=
  let peersWithWholeRange := (peers.filter fun entry =>
      decide (entry.2.historyMinHeight ≤ range.start) && decide (range.start ≤ range.stop) &&
        decide (range.stop ≤ entry.2.tipHeight) && except.all (· != entry.1)).map
    fun entry => (entry.1, range)
  if !peersWithWholeRange.isEmpty then peersWithWholeRange
  else
    ((peers.filter fun entry =>
        decide (entry.2.historyMinHeight ≤ range.start) && except.all (· != entry.1)).map
      fun entry => (entry.1, (⟨range.start, entry.2.tipHeight⟩ : Span))).filter
      fun entry => !entry.2.isEmpty

/-- `random_peer_with_except`: a drawn peer and the range it can provide. -/
def randomPeerWithExcept (scorer : PeerScorer Peer) (state : State Peer Req) (range : Span)
    (except : Option Peer) : State Peer Req × Option (Peer × Span) :=
  let peersRange := filterPeersByRange state.peers range except
  let drawn := scorer.selectPeer (peersRange.map Prod.fst) state.draws
  ({ state with draws := state.draws + 1 },
    drawn.bind fun peerId => (KeyMap.get? peersRange peerId).map fun range => (peerId, range))

/-- `random_peer_with`. -/
def randomPeerWith (scorer : PeerScorer Peer) (state : State Peer Req) (range : Span) :
    State Peer Req × Option (Peer × Span) :=
  state.randomPeerWithExcept scorer range none

/-- `get_pending_consensus_request_id_by`: the first request, in the order of the ids, with
a range that holds the height. -/
def getPendingConsensusRequestIdBy (state : State Peer Req) (height : Nat) :
    Option (Req × Peer × List Span) :=
  ((state.pendingConsensusRequests.mergeSort fun first second => decide (first.1 ≤ second.1)).find?
      fun entry => entry.2.1.any (·.contains height)).map
    fun entry => (entry.1, entry.2.2, entry.2.1)

/-- `take_inflight_if_peer_matches`. -/
def takeInflightIfPeerMatches (state : State Peer Req) (requestId : Req) (peerId : Peer) :
    State Peer Req × Except (InflightError Peer Req) Span :=
  match KeyMap.get? state.inflightRequests requestId with
  | none => (state, .error (.unknownRequestId requestId))
  | some (requestedRange, storedPeerId) =>
      if storedPeerId ≠ peerId then (state, .error (.wrongPeer storedPeerId peerId))
      else (state.removeInflight requestId, .ok requestedRange)

/-- `on_invalid_value`: cut the height out of the ranges of the request that holds it, if
the peer is the one the request went to.  The ranges change in place, also when cutting
fails; a request left without ranges is dropped only after a successful cut. -/
def onInvalidValue (state : State Peer Req) (height : Nat) (peerId : Peer) : State Peer Req :=
  match state.getPendingConsensusRequestIdBy height with
  | none => state
  | some (requestId, storedPeerId, ranges) =>
      if storedPeerId ≠ peerId then state
      else
        let excised := exciseHeight ranges height
        let state := state.storePending requestId excised.1 storedPeerId
        match excised.2 with
        | .error _ => state
        | .ok () => if excised.1.isEmpty then state.removePending requestId else state

/-- `on_started_height`. -/
def onStartedHeight (state : State Peer Req) (height : Nat) : State Peer Req :=
  let state := { state with started := true }.prunePendingConsensusRequests height
  { state with tipHeight := (decrement height).getD 0 }

/-- `on_decided`. -/
def onDecided (state : State Peer Req) (height : Nat) : State Peer Req :=
  { state with tipHeight := height }.prunePendingConsensusRequests height

/-- `request_values_from_peer` up to its request: the range it sends, if it sends one. -/
def rangeToRequest (state : State Peer Req) (range : Span) : Option Span :=
  if range.isEmpty then none
  else
    let range := state.trimValidatedHeights range
    if range.isEmpty then none else some range

/-- `request_values_from_peer` after the host answered `SendValueRequest`: store the request
under the id it was sent with, if it was sent. -/
def onValueRequestId (state : State Peer Req) (range : Span) (peer : Peer) :
    Resume Req → State Peer Req × Except (Error Req) Unit
  | .valueRequestId none => (state, .ok ())
  | .valueRequestId (some requestId) => (state.storeInflight requestId range peer, .ok ())
  | .continue => (state, .error (.unexpectedResume .continue .valueRequestId))

end Maps

end State

section Handlers

variable [DecidableEq Peer] [LinearOrder Req]

/-- `perform!` of an effect resumed with `Continue`, followed by the rest of the handler. -/
def performContinue (state : State Peer Req) (effects : List (Effect Peer Req Inbound))
    (effect : Effect Peer Req Inbound) (resumes : List (Resume Req))
    (rest : List (Effect Peer Req Inbound) → List (Resume Req) → Handled Peer Req Inbound) :
    Handled Peer Req Inbound :=
  let effects := effects ++ [effect]
  match resumes with
  | [] => ⟨state, effects, [], .suspended⟩
  | .continue :: later => rest effects later
  | .valueRequestId requestId :: later =>
      ⟨state, effects, later, .failed (.unexpectedResume (.valueRequestId requestId) .continue)⟩

/-- The `loop` of `request_values`: request the earliest free window from a drawn peer while
the heights stay within `maxHeights`.  Each request uses one resume. -/
def requestValuesLoop (scorer : PeerScorer Peer) (upToHeight maxHeights : Nat)
    (state : State Peer Req) (effects : List (Effect Peer Req Inbound))
    (resumes : List (Resume Req)) : Handled Peer Req Inbound :=
  match state.findRangeOfHeightsToRequest upToHeight with
  | none => ⟨state, effects, resumes, .done⟩
  | some range =>
      match state.randomPeerWith scorer range with
      | (state, none) => ⟨state, effects, resumes, .done⟩
      | (state, some (peerId, _)) =>
          if maxHeights < state.currentNumberOfHeights + (range.stop - range.start + 1) then
            ⟨state, effects, resumes, .done⟩
          else
            match state.rangeToRequest range with
            | none => ⟨state, effects, resumes, .spinning⟩
            | some request =>
                let effects := effects ++ [.sendValueRequest peerId request]
                match resumes with
                | [] => ⟨state, effects, [], .suspended⟩
                | resume :: later =>
                    match state.onValueRequestId request peerId resume with
                    | (state, .error error) => ⟨state, effects, later, .failed error⟩
                    | (state, .ok ()) =>
                        requestValuesLoop scorer upToHeight maxHeights state effects later

/-- `request_values`. -/
def requestValues (scorer : PeerScorer Peer) (state : State Peer Req) (upToHeight : Nat)
    (effects : List (Effect Peer Req Inbound)) (resumes : List (Resume Req)) :
    Handled Peer Req Inbound :=
  if state.maxParallelRequests ≤ state.inflightRequests.length then
    ⟨state, effects, resumes, .done⟩
  else
    requestValuesLoop scorer upToHeight (state.config.batchSize * state.config.parallelRequests)
      state effects resumes

/-- `on_tick`: broadcast the tip, then catch up to the highest tip a peer announced. -/
def onTick (scorer : PeerScorer Peer) (state : State Peer Req) (resumes : List (Resume Req)) :
    Handled Peer Req Inbound :=
  performContinue state [] (.broadcastStatus state.tipHeight) resumes fun effects resumes =>
    let maxTipHeight := (state.peers.map fun entry => entry.2.tipHeight).max?.getD state.tipHeight
    if state.tipHeight < maxTipHeight then requestValues scorer state maxTipHeight effects resumes
    else ⟨state, effects, resumes, .done⟩

/-- `on_status`. -/
def onStatus (scorer : PeerScorer Peer) (state : State Peer Req) (status : Status Peer)
    (resumes : List (Resume Req)) : Handled Peer Req Inbound :=
  let state := state.updateStatus status
  if !state.started then ⟨state, [], resumes, .done⟩
  else if state.tipHeight < status.tipHeight then
    requestValues scorer state status.tipHeight [] resumes
  else ⟨state, [], resumes, .done⟩

/-- `on_value_request`. -/
def onValueRequest (state : State Peer Req) (requestId : Inbound) (range : Span)
    (resumes : List (Resume Req)) : Handled Peer Req Inbound :=
  performContinue state [] (.getDecidedValues requestId range) resumes fun effects resumes =>
    ⟨state, effects, resumes, .done⟩

/-- `on_got_decided_values`; its checks of the host's values only log. -/
def onGotDecidedValues (state : State Peer Req) (requestId : Inbound) (range : Span)
    (values : List RawDecidedValue) (resumes : List (Resume Req)) : Handled Peer Req Inbound :=
  performContinue state [] (.sendValueResponse requestId ⟨range.start, values⟩) resumes
    fun effects resumes => ⟨state, effects, resumes, .done⟩

/-- The loop of the `ValueResponse` arm over the values: consecutive certificate heights
from the start height. -/
def certificateHeightsFrom : Nat → List RawDecidedValue → Bool
  | _, [] => true
  | currentHeight, value :: rest =>
      value.certificateHeight == currentHeight && certificateHeightsFrom (currentHeight + 1) rest

/-- The `ValueResponse` arm of `handle`: a valid response moves the answered part of the
request from inflight to pending.  The source's `unwrap` of the decremented end never fails
here, since a valid response holds at least one value. -/
def onValueResponse (state : State Peer Req) (requestId : Req) (peerId : Peer)
    (response : Option ValueResponse) (resumes : List (Resume Req)) : Handled Peer Req Inbound :=
  match state.takeInflightIfPeerMatches requestId peerId with
  | (state, .error _) => ⟨state, [], resumes, .done⟩
  | (state, .ok requestedRange) =>
      match response with
      | none => ⟨state, [], resumes, .done⟩
      | some response =>
          let start := response.startHeight
          let endHeight := response.endHeight.getD start
          let rangeLen := endHeight - start + 1
          if !certificateHeightsFrom start response.values then ⟨state, [], resumes, .done⟩
          else if start = requestedRange.start ∧ start ≤ endHeight ∧
              endHeight ≤ requestedRange.stop ∧ response.values.length = rangeLen then
            performContinue state [] (.notifyConsensusToProcessSyncResponse requestId peerId response)
              resumes fun effects resumes =>
                let actualEnd := requestedRange.start + response.values.length - 1
                ⟨state.storePending requestId [⟨start, actualEnd⟩] peerId, effects, resumes, .done⟩
          else ⟨state, [], resumes, .done⟩

/-- `handle`.  `InvalidValue` and `ValueProcessingError` differ only in the peer's score. -/
def handle (scorer : PeerScorer Peer) (state : State Peer Req) (resumes : List (Resume Req)) :
    Input Peer Req Inbound → Handled Peer Req Inbound
  | .tick => onTick scorer state resumes
  | .status status => onStatus scorer state status resumes
  | .startedHeight height => ⟨state.onStartedHeight height, [], resumes, .done⟩
  | .decided height => ⟨state.onDecided height, [], resumes, .done⟩
  | .valueRequest requestId _ range => onValueRequest state requestId range resumes
  | .valueResponse requestId peerId response =>
      onValueResponse state requestId peerId response resumes
  | .gotDecidedValues requestId range values =>
      onGotDecidedValues state requestId range values resumes
  | .syncRequestTimedOut requestId peerId _ =>
      ⟨(state.takeInflightIfPeerMatches requestId peerId).1, [], resumes, .done⟩
  | .invalidValue peerId height => ⟨state.onInvalidValue height peerId, [], resumes, .done⟩
  | .valueProcessingError peerId height =>
      ⟨state.onInvalidValue height peerId, [], resumes, .done⟩

/-- Handle inputs in order, sharing one list of resumes.  An error ends only its input; a
suspended or spinning handler ends the run. -/
def run (scorer : PeerScorer Peer) :
    State Peer Req → List (Resume Req) → List (Input Peer Req Inbound) → State Peer Req
  | state, _, [] => state
  | state, resumes, input :: inputs =>
      let handled := handle scorer state resumes input
      match handled.outcome with
      | .done | .failed _ => run scorer handled.state handled.resumes inputs
      | .suspended | .spinning => handled.state

end Handlers

end Malachite.Sync
