import Malachite.Sync.Bookkeeping

/-! How many requests one call of `request_values` makes (`sync/src/handle.rs`).

The loop of `request_values` keeps no count of its own.  It ends when no free window is
left, when no peer is drawn, or when the window would take the heights past the budget
`batch_size * parallel_requests`; the bound on parallel requests, `max_parallel_requests`,
is checked once, before the loop.  A request the network refuses (`SendValueRequest`
resumed with `None`) records nothing, so the next turn finds the same window again.
-/

namespace Malachite.Sync

open Span

variable {Peer Req Inbound : Type}

section Loop

variable [DecidableEq Peer] [LinearOrder Req]

/-- The peers `random_peer_with` draws from for a range. -/
def candidates (state : State Peer Req) (range : Span) : List Peer :=
  (State.filterPeersByRange state.peers range none).map Prod.fst

omit [LinearOrder Req] in
/-- A drawn candidate comes back with the range it can provide. -/
theorem randomPeerWith_of_selectPeer {scorer : PeerScorer Peer} {state : State Peer Req}
    {range : Span} {peer : Peer}
    (selected : scorer.selectPeer (candidates state range) state.draws = some peer) :
    ∃ provided, state.randomPeerWith scorer range =
      ({ state with draws := state.draws + 1 }, some (peer, provided)) := by
  have member : peer ∈ (State.filterPeersByRange state.peers range none).map Prod.fst :=
    scorer.selected_mem _ _ _ selected
  obtain ⟨provided, found⟩ := Option.ne_none_iff_exists'.mp
    (mt KeyMap.get?_eq_none_iff.mp (not_not.mpr member))
  unfold candidates at selected
  exact ⟨provided, by simp [State.randomPeerWith, State.randomPeerWithExcept, selected, found]⟩

section Turn

variable (scorer : PeerScorer Peer) (upToHeight maxHeights : Nat) (state : State Peer Req)
  (effects : List (Effect Peer Req Inbound)) {range request : Span} {peer : Peer}

/-- A turn that sends a request and gets the host's answer goes on from the state the
answer leaves. -/
theorem requestValuesLoop_answered {resume : Resume Req} {later : List (Resume Req)}
    {next : State Peer Req}
    (window : state.findRangeOfHeightsToRequest upToHeight = some range)
    (selected : scorer.selectPeer (candidates state range) state.draws = some peer)
    (withinBudget : state.currentNumberOfHeights + (range.stop - range.start + 1) ≤ maxHeights)
    (sent : state.rangeToRequest range = some request)
    (answered : State.onValueRequestId { state with draws := state.draws + 1 } request peer resume =
      (next, .ok ())) :
    requestValuesLoop scorer upToHeight maxHeights state effects (resume :: later) =
      requestValuesLoop scorer upToHeight maxHeights next
        (effects ++ [.sendValueRequest peer request]) later := by
  obtain ⟨provided, drawn⟩ := randomPeerWith_of_selectPeer selected
  have budget : ¬maxHeights < State.currentNumberOfHeights { state with draws := state.draws + 1 } +
      (range.stop - range.start + 1) := not_lt.mpr withinBudget
  rw [requestValuesLoop]
  simp only [window, drawn]
  rw [if_neg budget]
  simp only [show State.rangeToRequest { state with draws := state.draws + 1 } range = some request
    from sent, answered]

/-- A turn that sends a request with no resume left waits for the host. -/
theorem requestValuesLoop_unanswered
    (window : state.findRangeOfHeightsToRequest upToHeight = some range)
    (selected : scorer.selectPeer (candidates state range) state.draws = some peer)
    (withinBudget : state.currentNumberOfHeights + (range.stop - range.start + 1) ≤ maxHeights)
    (sent : state.rangeToRequest range = some request) :
    requestValuesLoop scorer upToHeight maxHeights state effects [] =
      ⟨{ state with draws := state.draws + 1 }, effects ++ [.sendValueRequest peer request], [],
        .suspended⟩ := by
  obtain ⟨provided, drawn⟩ := randomPeerWith_of_selectPeer selected
  have budget : ¬maxHeights < State.currentNumberOfHeights { state with draws := state.draws + 1 } +
      (range.stop - range.start + 1) := not_lt.mpr withinBudget
  rw [requestValuesLoop]
  simp only [window, drawn]
  rw [if_neg budget]
  simp only [show State.rangeToRequest { state with draws := state.draws + 1 } range = some request
    from sent]

end Turn

/-- Refused requests are sent again: as long as the window stays free and the scorer draws
some peer, every refusal is followed by one more request of the same heights. -/
theorem requestValuesLoop_refused (scorer : PeerScorer Peer) (upToHeight maxHeights : Nat)
    (state : State Peer Req) {range request : Span}
    (window : state.findRangeOfHeightsToRequest upToHeight = some range)
    (drawn : ∀ draw, scorer.selectPeer (candidates state range) draw ≠ none)
    (withinBudget : state.currentNumberOfHeights + (range.stop - range.start + 1) ≤ maxHeights)
    (sent : state.rangeToRequest range = some request) (refusals draws : Nat)
    (effects : List (Effect Peer Req Inbound)) :
    ∃ peers : List Peer, peers.length = refusals + 1 ∧
      requestValuesLoop scorer upToHeight maxHeights { state with draws } effects
          (List.replicate refusals (.valueRequestId none)) =
        ⟨{ state with draws := draws + (refusals + 1) },
          effects ++ peers.map (.sendValueRequest · request), [], .suspended⟩ := by
  -- the draw count is all that changes from turn to turn
  induction refusals generalizing draws effects with
  | zero =>
      obtain ⟨peer, selected⟩ := Option.ne_none_iff_exists'.mp (drawn draws)
      exact ⟨[peer], rfl, requestValuesLoop_unanswered scorer upToHeight maxHeights
        { state with draws } effects window selected withinBudget sent⟩
  | succ refusals ih =>
      obtain ⟨peer, selected⟩ := Option.ne_none_iff_exists'.mp (drawn draws)
      obtain ⟨peers, counted, rest⟩ := ih (draws + 1) (effects ++ [.sendValueRequest peer request])
      refine ⟨peer :: peers, by simp [counted], ?_⟩
      rw [List.replicate_succ, requestValuesLoop_answered scorer upToHeight maxHeights
        { state with draws } effects window selected withinBudget sent rfl, rest]
      have sameDraws : draws + 1 + (refusals + 1) = draws + (refusals + 1 + 1) := by omega
      simp [sameDraws]

theorem request_values_unbounded (scorer : PeerScorer Peer) (state : State Peer Req)
    (upToHeight : Nat) (effects : List (Effect Peer Req Inbound)) (refusals : Nat)
    {range request : Span}
    (below : state.inflightRequests.length < state.maxParallelRequests)
    (window : state.findRangeOfHeightsToRequest upToHeight = some range)
    (drawn : ∀ draw, scorer.selectPeer (candidates state range) draw ≠ none)
    (withinBudget : state.currentNumberOfHeights + (range.stop - range.start + 1) ≤
      state.config.batchSize * state.config.parallelRequests)
    (sent : state.rangeToRequest range = some request) :
    ∃ peers : List Peer, peers.length = refusals + 1 ∧
      requestValues scorer state upToHeight effects (List.replicate refusals (.valueRequestId none)) =
        ⟨{ state with draws := state.draws + (refusals + 1) },
          effects ++ peers.map (.sendValueRequest · request), [], .suspended⟩ := by
  unfold requestValues
  rw [if_neg (not_le.mpr below)]
  exact requestValuesLoop_refused scorer upToHeight _ state window drawn withinBudget sent
    refusals state.draws effects

/-- A loop with no free window left ends. -/
theorem requestValuesLoop_no_window (scorer : PeerScorer Peer) (upToHeight maxHeights : Nat)
    (state : State Peer Req) (effects : List (Effect Peer Req Inbound)) (resumes : List (Resume Req))
    (window : state.findRangeOfHeightsToRequest upToHeight = none) :
    requestValuesLoop scorer upToHeight maxHeights state effects resumes =
      ⟨state, effects, resumes, .done⟩ := by
  rw [requestValuesLoop]
  simp only [window]

/-- With `parallel_requests = 0` the height budget is zero, and every window, which holds a
height at least, passes it: the loop ends at its first turn without a request. -/
theorem requestValuesLoop_zero_budget (scorer : PeerScorer Peer) (upToHeight : Nat)
    (state : State Peer Req) (effects : List (Effect Peer Req Inbound))
    (resumes : List (Resume Req)) :
    let handled := requestValuesLoop scorer upToHeight 0 state effects resumes
    handled.effects = effects ∧ handled.resumes = resumes ∧
      handled.state.inflightRequests = state.inflightRequests ∧ handled.outcome = .done := by
  rw [requestValuesLoop]
  split
  · exact ⟨rfl, rfl, rfl, rfl⟩
  · split
    · next drawn =>
      obtain rfl := State.randomPeerWith_eq drawn
      exact ⟨rfl, rfl, rfl, rfl⟩
    · next drawn =>
      obtain rfl := State.randomPeerWith_eq drawn
      rw [if_pos (by omega)]
      exact ⟨rfl, rfl, rfl, rfl⟩

theorem no_request_without_parallel_requests (scorer : PeerScorer Peer) (state : State Peer Req)
    (upToHeight : Nat) (effects : List (Effect Peer Req Inbound)) (resumes : List (Resume Req))
    (zero : state.config.parallelRequests = 0) :
    let handled := requestValues scorer state upToHeight effects resumes
    handled.effects = effects ∧ handled.resumes = resumes ∧
      handled.state.inflightRequests = state.inflightRequests ∧ handled.outcome = .done := by
  unfold requestValues
  split
  · exact ⟨rfl, rfl, rfl, rfl⟩
  · rw [zero, Nat.mul_zero]
    exact requestValuesLoop_zero_budget scorer upToHeight state effects resumes

end Loop

/-! ### Runs with one peer -/

/-- The scorer that always draws the first candidate. -/
def firstPeer : PeerScorer Nat :=
  ⟨fun candidates _ => candidates.head?, fun _ _ _ selected => List.mem_of_head? selected⟩

/-- One peer at height 3 and a tip at 0, with a batch size and a parallelism of one: a host
that refuses the first two requests gets a third, one more turn than
`batch_size * parallel_requests + 1`. -/
theorem request_values_unbounded_twice :
    let state : State Nat Nat := (State.new ⟨1, 1⟩).updateStatus ⟨7, 3, 0⟩
    (state.inflightRequests.length < state.maxParallelRequests ∧
        state.findRangeOfHeightsToRequest 3 = some ⟨1, 1⟩ ∧
        (∀ draw, firstPeer.selectPeer (candidates state ⟨1, 1⟩) draw ≠ none) ∧
        state.currentNumberOfHeights + (1 - 1 + 1) ≤
          state.config.batchSize * state.config.parallelRequests ∧
        state.rangeToRequest ⟨1, 1⟩ = some ⟨1, 1⟩) ∧
      ∃ peers : List Nat, peers.length = 2 + 1 ∧
        requestValues firstPeer state 3 ([] : List (Effect Nat Nat Nat))
            (List.replicate 2 (.valueRequestId none)) =
          ⟨{ state with draws := state.draws + (2 + 1) },
            [] ++ peers.map (.sendValueRequest · ⟨1, 1⟩), [], .suspended⟩ := by
  intro state
  have below : state.inflightRequests.length < state.maxParallelRequests := by decide
  have window : state.findRangeOfHeightsToRequest 3 = some ⟨1, 1⟩ := by
    simp [state, State.findRangeOfHeightsToRequest, State.ranges, State.updateStatus, State.new,
      computeFreeWindow, skipCovered, extendWindow]
  have drawn : ∀ draw, firstPeer.selectPeer (candidates state ⟨1, 1⟩) draw ≠ none :=
    fun _ => Option.some_ne_none 7
  have withinBudget : state.currentNumberOfHeights + (1 - 1 + 1) ≤
      state.config.batchSize * state.config.parallelRequests := by decide
  have sent : state.rangeToRequest ⟨1, 1⟩ = some ⟨1, 1⟩ := by decide
  exact ⟨⟨below, window, drawn, withinBudget, sent⟩,
    request_values_unbounded firstPeer state 3 [] 2 below window drawn withinBudget sent⟩

/-- A state with no request and one peer ahead, and `parallel_requests = 0`: no request. -/
theorem no_request_without_parallel_requests_at_tip :
    let state : State Nat Nat := (State.new ⟨0, 1⟩).updateStatus ⟨7, 3, 0⟩
    state.config.parallelRequests = 0 ∧
      (requestValues firstPeer state 3 ([] : List (Effect Nat Nat Nat))
        [.valueRequestId (some 0)]).effects = [] := by
  intro state
  have zero : state.config.parallelRequests = 0 := rfl
  exact ⟨zero, (no_request_without_parallel_requests firstPeer state 3 [] _ zero).1⟩

/-- A reachable state with one peer at height 3, `parallel_requests = 1` and
`batch_size = 3`: the request for heights 1 to 3 was answered, and heights 1 and 3 then
proved invalid, leaving height 2 pending.  On the next tick `request_values` finds heights
1 and 3 free in two windows and requests both: two requests in flight, where
`max_parallel_requests` is one. -/
theorem parallel_requests_exceeded :
    ∃ handled : Handled Nat Nat Nat,
      handled = handle firstPeer
        (run firstPeer (State.new ⟨1, 3⟩) [.valueRequestId (some 0), .continue]
          ([.startedHeight 1, .status ⟨7, 3, 0⟩, .valueResponse 0 7 (some ⟨1, [⟨1⟩, ⟨2⟩, ⟨3⟩]⟩),
            .invalidValue 7 1, .invalidValue 7 3] : List (Input Nat Nat Nat)))
        [.continue, .valueRequestId (some 1), .valueRequestId (some 2)] .tick ∧
      handled.outcome = .done ∧
      handled.state.maxParallelRequests < handled.state.inflightRequests.length := by
  let before := run firstPeer (State.new ⟨1, 3⟩ : State Nat Nat)
    [.valueRequestId (some 0), .continue]
    ([.startedHeight 1, .status ⟨7, 3, 0⟩, .valueResponse 0 7 (some ⟨1, [⟨1⟩, ⟨2⟩, ⟨3⟩]⟩),
      .invalidValue 7 1, .invalidValue 7 3] : List (Input Nat Nat Nat))
  let handled := handle firstPeer before
    [.continue, .valueRequestId (some 1), .valueRequestId (some 2)] (.tick : Input Nat Nat Nat)
  refine ⟨handled, rfl, ?_⟩
  -- the state the first five inputs leave: no request in flight, height 2 pending
  have reached : before = ⟨1, ⟨1, 3⟩, true, 0, [], [(0, ([⟨2, 2⟩], 7))], [(7, ⟨7, 3, 0⟩)],
      List.nodup_nil, List.nodup_singleton 0⟩ := by
    with_unfolding_all rfl
  have inflight : before.inflightRequests = [] := by rw [reached]
  have ranges : before.ranges = [⟨2, 2⟩] := by rw [reached]; rfl
  have config : before.config = ⟨1, 3⟩ := by rw [reached]
  have tip : before.tipHeight = 0 := by rw [reached]
  have first : before.findRangeOfHeightsToRequest 3 = some ⟨1, 1⟩ := by
    rw [reached]
    with_unfolding_all rfl
  -- the first turn requests height 1
  let once := State.storeInflight { before with draws := before.draws + 1 } 1 ⟨1, 1⟩ 7
  have onceRanges : once.ranges = [⟨1, 1⟩, ⟨2, 2⟩] := by
    simp [once, State.ranges, State.storeInflight, inflight, KeyMap.insert, ← ranges]
  have second : once.findRangeOfHeightsToRequest 3 = some ⟨3, 3⟩ := by
    have onceTip : once.tipHeight = 0 := tip
    have onceBatch : once.config.batchSize = 3 := by rw [show once.config = before.config from rfl, config]
    rw [State.findRangeOfHeightsToRequest, onceRanges, onceTip, onceBatch]
    simp [computeFreeWindow, List.mergeSort, skipCovered, extendWindow, rangeLe]
  -- the second turn requests height 3
  let twice := State.storeInflight { once with draws := once.draws + 1 } 2 ⟨3, 3⟩ 7
  have twiceRanges : twice.ranges = [⟨1, 1⟩, ⟨3, 3⟩, ⟨2, 2⟩] := by
    simp [twice, once, State.ranges, State.storeInflight, inflight, KeyMap.insert, ← ranges]
  have third : twice.findRangeOfHeightsToRequest 3 = none := by
    have twiceTip : twice.tipHeight = 0 := tip
    have twiceBatch : twice.config.batchSize = 3 := by
      rw [show twice.config = before.config from rfl, config]
    rw [State.findRangeOfHeightsToRequest, twiceRanges, twiceTip, twiceBatch]
    simp [computeFreeWindow, List.mergeSort, skipCovered, rangeLe]
  -- the tick broadcasts the tip and calls `request_values` up to the peer's height
  have peerTip : (before.peers.map fun entry => entry.2.tipHeight).max?.getD before.tipHeight = 3 := by
    with_unfolding_all rfl
  have called : handled = requestValuesLoop firstPeer 3 (3 * 1) before
      [.broadcastStatus before.tipHeight] [.valueRequestId (some 1), .valueRequestId (some 2)] := by
    have below : ¬before.maxParallelRequests ≤ before.inflightRequests.length := by
      simp [State.maxParallelRequests, inflight]
    have behind : before.tipHeight < 3 := by rw [tip]; decide
    simp only [handled, handle, onTick, performContinue, List.nil_append]
    rw [peerTip, if_pos behind, requestValues, if_neg below, config]
  have toOnce : requestValuesLoop firstPeer 3 (3 * 1) before
      ([.broadcastStatus before.tipHeight] : List (Effect Nat Nat Nat))
      [.valueRequestId (some 1), .valueRequestId (some 2)] =
      requestValuesLoop firstPeer 3 (3 * 1) once
        [.broadcastStatus before.tipHeight, .sendValueRequest 7 ⟨1, 1⟩]
        [.valueRequestId (some 2)] := by
    refine requestValuesLoop_answered firstPeer 3 _ before _ first (by with_unfolding_all rfl)
      ?_ ?_ rfl
    · rw [State.currentNumberOfHeights_eq, ranges]
      decide
    · simp [State.rangeToRequest, State.trimValidatedHeights, tip, Span.isEmpty]
  have toTwice : requestValuesLoop firstPeer 3 (3 * 1) once
      ([.broadcastStatus before.tipHeight, .sendValueRequest 7 ⟨1, 1⟩] : List (Effect Nat Nat Nat))
      [.valueRequestId (some 2)] =
      requestValuesLoop firstPeer 3 (3 * 1) twice
        [.broadcastStatus before.tipHeight, .sendValueRequest 7 ⟨1, 1⟩, .sendValueRequest 7 ⟨3, 3⟩]
        [] := by
    refine requestValuesLoop_answered firstPeer 3 _ once _ second (by with_unfolding_all rfl)
      ?_ ?_ rfl
    · rw [State.currentNumberOfHeights_eq, onceRanges]
      decide
    · simp [State.rangeToRequest, State.trimValidatedHeights, once, State.storeInflight, tip,
        Span.isEmpty]
  rw [called, toOnce, toTwice, requestValuesLoop_no_window firstPeer 3 _ twice _ _ third]
  refine ⟨rfl, ?_⟩
  simp [twice, once, State.storeInflight, State.maxParallelRequests, inflight, config,
    KeyMap.insert]

end Malachite.Sync
