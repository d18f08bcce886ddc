import Malachite.Sync.Handle

/-! The request bookkeeping of value sync.  Every range kept in `inflight_requests` and
`pending_consensus_requests` is nonempty, no height lies in two of them, and together
they hold at most `batch_size * parallel_requests` heights, the capacity of the queue
through which consensus receives synced values.  This holds from the first state on,
whatever the inputs and the resumes (`request_bookkeeping`).

Each map operation is measured by the weights of `Span`: storing a request adds the
weights of its range, removing one takes them away, and replacing the ranges of a
pending request swaps the weights of the old ranges for those of the new.  Every
handler then either shrinks the ranges (a response, a timeout, an invalid value, a
pruning) or adds a free window within the budget (a request).
-/

namespace Malachite.Sync

open Span

variable {Peer Req Inbound : Type}

namespace State

theorem weigh_ranges (weight : Span → Nat) (state : State Peer Req) :
    weigh weight state.ranges =
      (state.inflightRequests.map fun entry => weight entry.2.1).sum +
        (state.pendingConsensusRequests.map fun entry => weigh weight entry.2.1).sum := by
  rw [ranges, weigh_append, weigh_flatMap]
  simp [weigh, Function.comp_def]

theorem currentNumberOfHeights_eq (state : State Peer Req) :
    state.currentNumberOfHeights = weigh count state.ranges := by
  rw [weigh_ranges]
  rfl

theorem pruneRanges_shrinks (ranges : List Span) (upToHeight : Nat) :
    Shrinks (pruneRanges ranges upToHeight) ranges :=
  (Shrinks.of_sublist List.filter_sublist).trans (exciseHeight_shrinks ranges upToHeight)

theorem prunePendingConsensusRequests_shrinks (state : State Peer Req) (upToHeight : Nat) :
    Shrinks (state.prunePendingConsensusRequests upToHeight).ranges state.ranges := by
  -- pruning each request's ranges shrinks them; dropping requests drops ranges
  have pruned : Shrinks
      (state.pendingConsensusRequests.flatMap fun entry => pruneRanges entry.2.1 upToHeight)
      (state.pendingConsensusRequests.flatMap fun entry => entry.2.1) :=
    Shrinks.flatMap fun entry _ => pruneRanges_shrinks entry.2.1 upToHeight
  have dropped : ∀ weight,
      weigh weight (((KeyMap.mapValues state.pendingConsensusRequests fun _ value =>
          (pruneRanges value.1 upToHeight, value.2)).filter fun entry => !entry.2.1.isEmpty).flatMap
            fun entry => entry.2.1) ≤
        weigh weight (state.pendingConsensusRequests.flatMap
          fun entry => pruneRanges entry.2.1 upToHeight) := by
    intro weight
    simp only [weigh_flatMap, KeyMap.mapValues]
    calc _ ≤ ((state.pendingConsensusRequests.map fun entry =>
            (entry.1, (pruneRanges entry.2.1 upToHeight, entry.2.2))).map
              fun entry => weigh weight entry.2.1).sum :=
          (List.filter_sublist.map _).sum_le_sum fun _ _ => Nat.zero_le _
      _ = _ := by simp [Function.comp_def]
  exact (Shrinks.refl _).append ((Shrinks.of_weigh_le dropped).trans pruned)

/-- The budget check of `request_values` passed. -/
theorem budget_of_not_lt {state : State Peer Req} {bound : Nat} {window : Span}
    (checked : ¬bound < state.currentNumberOfHeights + (window.stop - window.start + 1)) :
    weigh count state.ranges + window.count ≤ bound := by
  rw [currentNumberOfHeights_eq] at checked
  simp only [count]
  omega

/-- The range `request_values_from_peer` sends is the trimmed range, and nonempty. -/
theorem rangeToRequest_spec {state : State Peer Req} {range request : Span}
    (sent : state.rangeToRequest range = some request) :
    request = state.trimValidatedHeights range ∧ request.start ≤ request.stop := by
  unfold rangeToRequest at sent
  by_cases empty : range.isEmpty = true
  · simp [empty] at sent
  · by_cases trimmedEmpty : (state.trimValidatedHeights range).isEmpty = true
    · simp [empty, trimmedEmpty] at sent
    · simp only [empty, trimmedEmpty, Bool.false_eq_true, if_false, Option.some.injEq] at sent
      subst sent
      simpa [isEmpty] using trimmedEmpty

section Peers

variable [DecidableEq Peer]

@[simp] theorem ranges_updateStatus (state : State Peer Req) (status : Status Peer) :
    (state.updateStatus status).ranges = state.ranges := rfl

@[simp] theorem config_updateStatus (state : State Peer Req) (status : Status Peer) :
    (state.updateStatus status).config = state.config := rfl

theorem randomPeerWith_eq {scorer : PeerScorer Peer} {state later : State Peer Req} {range : Span}
    {selected : Option (Peer × Span)}
    (drawn : state.randomPeerWith scorer range = (later, selected)) :
    later = { state with draws := state.draws + 1 } :=
  (congrArg Prod.fst drawn).symm

end Peers

section Requests

variable [LinearOrder Req]

/-! ### What each map operation does to the weights of the ranges -/

theorem weigh_storeInflight (weight : Span → Nat) (state : State Peer Req) (requestId : Req)
    (range : Span) (peer : Peer) :
    weigh weight (state.storeInflight requestId range peer).ranges ≤
      weigh weight state.ranges + weight range := by
  have inserted := KeyMap.sum_map_insert (fun value => weight value.1) state.inflightRequests
    requestId (range, peer)
  dsimp only at inserted
  simp only [weigh_ranges, storeInflight]
  omega

theorem weigh_removeInflight (weight : Span → Nat) (state : State Peer Req) (requestId : Req) :
    weigh weight (state.removeInflight requestId).ranges +
        ((KeyMap.get? state.inflightRequests requestId).map fun value => weight value.1).getD 0 ≤
      weigh weight state.ranges := by
  have removed := KeyMap.sum_map_retain_ne (fun value => weight value.1) state.inflightRequests
    requestId
  simp only [weigh_ranges, removeInflight]
  omega

theorem weigh_storePending (weight : Span → Nat) (state : State Peer Req) (requestId : Req)
    (ranges : List Span) (peer : Peer) :
    weigh weight (state.storePending requestId ranges peer).ranges +
        ((KeyMap.get? state.pendingConsensusRequests requestId).map
          fun value => weigh weight value.1).getD 0 =
      weigh weight state.ranges + weigh weight ranges := by
  have inserted := KeyMap.sum_map_insert (fun value => weigh weight value.1)
    state.pendingConsensusRequests requestId (ranges, peer)
  dsimp only at inserted
  simp only [weigh_ranges, storePending]
  omega

theorem weigh_removePending_le (weight : Span → Nat) (state : State Peer Req) (requestId : Req) :
    weigh weight (state.removePending requestId).ranges ≤ weigh weight state.ranges := by
  have removed := KeyMap.sum_map_retain_le (fun value => weigh weight value.1)
    state.pendingConsensusRequests fun other => other != requestId
  simp only [weigh_ranges, removePending]
  omega


theorem getPendingConsensusRequestIdBy_mem {state : State Peer Req} {height : Nat}
    {requestId : Req} {peer : Peer} {ranges : List Span}
    (found : state.getPendingConsensusRequestIdBy height = some (requestId, peer, ranges)) :
    (requestId, (ranges, peer)) ∈ state.pendingConsensusRequests := by
  unfold getPendingConsensusRequestIdBy at found
  obtain ⟨entry, first, same⟩ := Option.map_eq_some_iff.mp found
  have sorted := List.mem_of_find?_eq_some first
  cases same
  exact (List.mergeSort_perm _ _).mem_iff.mp sorted

theorem takeInflightIfPeerMatches_ok [DecidableEq Peer] {state later : State Peer Req}
    {requestId : Req} {peerId : Peer} {range : Span}
    (taken : state.takeInflightIfPeerMatches requestId peerId = (later, .ok range)) :
    KeyMap.get? state.inflightRequests requestId = some (range, peerId) ∧
      later = state.removeInflight requestId := by
  unfold takeInflightIfPeerMatches at taken
  split at taken
  · cases taken
  · next requestedRange storedPeerId found =>
    split at taken
    · cases taken
    · next samePeer =>
      cases taken
      simp only [not_not] at samePeer
      exact ⟨samePeer ▸ found, rfl⟩

end Requests

end State

open State

/-- A property of the state before an effect and after the rest of the handler holds of the
state `performContinue` leaves. -/
theorem performContinue_state {motive : State Peer Req → Prop} {state : State Peer Req}
    {effects : List (Effect Peer Req Inbound)} {effect : Effect Peer Req Inbound}
    {resumes : List (Resume Req)}
    {rest : List (Effect Peer Req Inbound) → List (Resume Req) → Handled Peer Req Inbound}
    (now : motive state) (later : ∀ effects resumes, motive (rest effects resumes).state) :
    motive (performContinue state effects effect resumes rest).state := by
  unfold performContinue
  split
  · exact now
  · exact later _ _
  · exact now

/-! ### The invariant -/

/-- Separated ranges within the height budget of the configuration. -/
structure Bookkeeping (config : Config) (state : State Peer Req) : Prop where
  sameConfig : state.config = config
  separated : Separated state.ranges
  budget : weigh count state.ranges ≤ config.batchSize * config.parallelRequests

theorem bookkeeping_new (config : Config) :
    Bookkeeping config (State.new config : State Peer Req) :=
  ⟨rfl, separated_nil, Nat.zero_le _⟩

variable {config : Config}

namespace Bookkeeping

theorem congr {later earlier : State Peer Req} (invariant : Bookkeeping config earlier)
    (sameRanges : later.ranges = earlier.ranges) (sameConfig : later.config = earlier.config) :
    Bookkeeping config later :=
  ⟨sameConfig.trans invariant.sameConfig, sameRanges ▸ invariant.separated,
    sameRanges ▸ invariant.budget⟩

theorem of_shrinks {later earlier : State Peer Req} (invariant : Bookkeeping config earlier)
    (shrinks : Shrinks later.ranges earlier.ranges) (sameConfig : later.config = earlier.config) :
    Bookkeeping config later :=
  ⟨sameConfig.trans invariant.sameConfig, invariant.separated.of_shrinks shrinks,
    shrinks.points.trans invariant.budget⟩

theorem prunePendingConsensusRequests {state : State Peer Req}
    (invariant : Bookkeeping config state) (upToHeight : Nat) :
    Bookkeeping config (state.prunePendingConsensusRequests upToHeight) :=
  invariant.of_shrinks (prunePendingConsensusRequests_shrinks state upToHeight) rfl

/-- Drawing a peer changes only the draw count. -/
theorem drawn [DecidableEq Peer] {state later : State Peer Req} {scorer : PeerScorer Peer}
    {range : Span} {selected : Option (Peer × Span)} (invariant : Bookkeeping config state)
    (drawn : state.randomPeerWith scorer range = (later, selected)) : Bookkeeping config later := by
  obtain rfl := randomPeerWith_eq drawn
  exact invariant.congr rfl rfl

section Requests

variable [LinearOrder Req]

theorem removeInflight {state : State Peer Req} (invariant : Bookkeeping config state)
    (requestId : Req) : Bookkeeping config (state.removeInflight requestId) :=
  invariant.of_shrinks (Shrinks.of_weigh_le fun weight => by
    have := weigh_removeInflight weight state requestId
    omega) rfl

theorem removePending {state : State Peer Req} (invariant : Bookkeeping config state)
    (requestId : Req) : Bookkeeping config (state.removePending requestId) :=
  invariant.of_shrinks (Shrinks.of_weigh_le fun weight =>
    weigh_removePending_le weight state requestId) rfl

/-- Replacing the ranges of a pending request by ranges that shrink them. -/
theorem storePending {state : State Peer Req} (invariant : Bookkeeping config state)
    {requestId : Req} {ranges replacement : List Span} {stored : Peer}
    (found : KeyMap.get? state.pendingConsensusRequests requestId = some (ranges, stored))
    (shrinks : Shrinks replacement ranges) (peer : Peer) :
    Bookkeeping config (state.storePending requestId replacement peer) :=
  invariant.of_shrinks (Shrinks.of_part (fun weight => by
    have := weigh_storePending weight state requestId replacement peer
    simp only [found, Option.map_some, Option.getD_some] at this
    omega) shrinks) rfl

/-- Moving a part of an inflight request's range to the pending requests. -/
theorem answer {state : State Peer Req} (invariant : Bookkeeping config state)
    {requestId : Req} {requested answered : Span} {peer : Peer}
    (found : KeyMap.get? state.inflightRequests requestId = some (requested, peer))
    (inside : Refines [answered] requested) (storedPeer : Peer) :
    Bookkeeping config
      ((state.removeInflight requestId).storePending requestId [answered] storedPeer) :=
  invariant.of_shrinks (Shrinks.of_part (fun weight => by
    have removed := weigh_removeInflight weight state requestId
    have stored := weigh_storePending weight (state.removeInflight requestId) requestId
      [answered] storedPeer
    simp only [found, Option.map_some, Option.getD_some] at removed
    simp only [weigh_cons, weigh_nil] at stored ⊢
    omega) inside.shrinks) rfl

/-- Storing a request for a free window within the budget keeps the bookkeeping. -/
theorem onValueRequestId {state : State Peer Req} (invariant : Bookkeeping config state)
    {upToHeight : Nat} {window request : Span}
    (free : FreeWindow state.tipHeight upToHeight state.config.batchSize state.ranges window)
    (withinBudget : weigh count state.ranges + window.count ≤
      config.batchSize * config.parallelRequests)
    (trimmed : state.rangeToRequest window = some request) (peer : Peer) (resume : Resume Req) :
    Bookkeeping config (state.onValueRequestId request peer resume).1 := by
  -- the request is the window trimmed from below: nonempty and inside the window
  have inside : window.start ≤ request.start ∧ request.start ≤ request.stop ∧
      request.stop = window.stop := by
    obtain ⟨rfl, nonempty⟩ := rangeToRequest_spec trimmed
    exact ⟨le_max_right _ _, nonempty, rfl⟩
  match resume with
  | .continue => exact invariant
  | .valueRequestId none => exact invariant
  | .valueRequestId (some requestId) =>
      change Bookkeeping config (state.storeInflight requestId request peer)
      have added := (weigh_storeInflight · state requestId request peer)
      refine ⟨invariant.sameConfig, invariant.separated.of_add added inside.2.1 ?_, ?_⟩
      · intro point held
        refine weigh_holding_eq_zero.mpr fun range member => ?_
        have inWindow : window.contains point = true := by
          simp only [contains_iff] at held ⊢
          omega
        exact free.free range member point inWindow
      · have := added count
        have : request.count ≤ window.count := by simp only [count]; omega
        omega

end Requests

section Handlers

variable [DecidableEq Peer] [LinearOrder Req]

theorem takeInflightIfPeerMatches {state : State Peer Req} (invariant : Bookkeeping config state)
    (requestId : Req) (peerId : Peer) :
    Bookkeeping config (state.takeInflightIfPeerMatches requestId peerId).1 := by
  unfold State.takeInflightIfPeerMatches
  split
  · exact invariant
  · split
    · exact invariant
    · exact invariant.removeInflight requestId

theorem onInvalidValue {state : State Peer Req} (invariant : Bookkeeping config state)
    (height : Nat) (peerId : Peer) : Bookkeeping config (state.onInvalidValue height peerId) := by
  unfold State.onInvalidValue
  split
  · exact invariant
  · next requestId storedPeerId ranges found =>
    -- the request found is the one stored under its id, since the ids are distinct
    have stored := KeyMap.get?_of_mem state.pendingDistinct (getPendingConsensusRequestIdBy_mem found)
    have cut := invariant.storePending stored (exciseHeight_shrinks ranges height) storedPeerId
    split
    · exact invariant
    · dsimp only
      split
      · exact cut
      · split
        · exact cut.removePending requestId
        · exact cut

theorem requestLoop (scorer : PeerScorer Peer) (upToHeight : Nat) {state : State Peer Req}
    (invariant : Bookkeeping config state) (effects : List (Effect Peer Req Inbound))
    (resumes : List (Resume Req)) :
    Bookkeeping config
      (requestValuesLoop scorer upToHeight (config.batchSize * config.parallelRequests) state
        effects resumes).state := by
  -- one case per way through the loop's body; only a stored request changes the ranges
  fun_induction requestValuesLoop scorer upToHeight (config.batchSize * config.parallelRequests)
    state effects resumes with
  | case1 => exact invariant
  | case2 _ _ _ _ _ _ drawn => exact invariant.drawn drawn
  | case3 _ _ _ _ _ _ _ _ drawn _ => exact invariant.drawn drawn
  | case4 _ _ _ _ _ _ _ _ drawn _ _ =>
      -- the source loops forever here; the state so far keeps the invariant
      exact invariant.drawn drawn
  | case5 _ _ _ _ _ _ _ drawn _ _ _ => exact invariant.drawn drawn
  | case6 _ _ _ found _ peerId _ drawn withinBudget _ trimmed _ resume _ _ _ stored =>
      have kept := (invariant.drawn drawn).onValueRequestId
        (by obtain rfl := randomPeerWith_eq drawn; exact computeFreeWindow_spec found)
        (budget_of_not_lt withinBudget) trimmed peerId resume
      rw [stored] at kept
      exact kept
  | case7 _ _ _ found _ peerId _ drawn withinBudget _ trimmed _ resume _ _ stored ih =>
      have kept := (invariant.drawn drawn).onValueRequestId
        (by obtain rfl := randomPeerWith_eq drawn; exact computeFreeWindow_spec found)
        (budget_of_not_lt withinBudget) trimmed peerId resume
      rw [stored] at kept
      exact ih kept

theorem requestValues (scorer : PeerScorer Peer) {state : State Peer Req}
    (invariant : Bookkeeping config state) (upToHeight : Nat)
    (effects : List (Effect Peer Req Inbound)) (resumes : List (Resume Req)) :
    Bookkeeping config (requestValues scorer state upToHeight effects resumes).state := by
  unfold Sync.requestValues
  split
  · exact invariant
  · rw [invariant.sameConfig]
    exact invariant.requestLoop scorer upToHeight effects resumes

theorem onTick (scorer : PeerScorer Peer) {state : State Peer Req}
    (invariant : Bookkeeping config state) (resumes : List (Resume Req)) :
    Bookkeeping config (onTick scorer state resumes : Handled Peer Req Inbound).state := by
  unfold Sync.onTick
  refine performContinue_state invariant fun effects resumes => ?_
  dsimp only
  split
  · exact invariant.requestValues scorer _ effects resumes
  · exact invariant

theorem onStatus (scorer : PeerScorer Peer) {state : State Peer Req}
    (invariant : Bookkeeping config state) (status : Status Peer) (resumes : List (Resume Req)) :
    Bookkeeping config (onStatus scorer state status resumes : Handled Peer Req Inbound).state := by
  have updated : Bookkeeping config (state.updateStatus status) := invariant.congr rfl rfl
  unfold Sync.onStatus
  dsimp only
  split
  · exact updated
  · split
    · exact updated.requestValues scorer _ [] resumes
    · exact updated

theorem onValueResponse {state : State Peer Req} (invariant : Bookkeeping config state)
    (requestId : Req) (peerId : Peer) (response : Option ValueResponse)
    (resumes : List (Resume Req)) :
    Bookkeeping config
      (onValueResponse state requestId peerId response resumes : Handled Peer Req Inbound).state := by
  have taken := invariant.takeInflightIfPeerMatches requestId peerId
  unfold Sync.onValueResponse
  split
  · next later _ failed =>
    rw [failed] at taken
    exact taken
  · next later requestedRange succeeded =>
    rw [succeeded] at taken
    obtain ⟨found, rfl⟩ := takeInflightIfPeerMatches_ok succeeded
    split
    · exact taken
    · next response =>
      dsimp only
      split
      · exact taken
      · split
        · next valid =>
          refine performContinue_state taken fun effects resumes => ?_
          -- a valid response answers a nonempty prefix of the requested range
          obtain ⟨sameStart, ordered, within, counted⟩ := valid
          have answered : Refines [⟨response.startHeight,
              requestedRange.start + response.values.length - 1⟩] requestedRange :=
            refines_single (by dsimp only; omega) (by dsimp only; omega) (by dsimp only; omega)
          exact invariant.answer found answered peerId
        · exact taken

theorem handle (scorer : PeerScorer Peer) {state : State Peer Req}
    (invariant : Bookkeeping config state) (resumes : List (Resume Req))
    (input : Input Peer Req Inbound) :
    Bookkeeping config (handle scorer state resumes input).state := by
  cases input with
  | tick => exact invariant.onTick scorer resumes
  | status status => exact invariant.onStatus scorer status resumes
  | startedHeight height =>
      have started : Bookkeeping config { state with started := true } := invariant.congr rfl rfl
      exact (started.prunePendingConsensusRequests height).congr rfl rfl
  | decided height =>
      have decided : Bookkeeping config { state with tipHeight := height } :=
        invariant.congr rfl rfl
      exact decided.prunePendingConsensusRequests height
  | valueRequest requestId _ range => exact performContinue_state invariant fun _ _ => invariant
  | valueResponse requestId peerId response =>
      exact invariant.onValueResponse requestId peerId response resumes
  | gotDecidedValues requestId range values =>
      exact performContinue_state invariant fun _ _ => invariant
  | syncRequestTimedOut requestId peerId _ =>
      exact invariant.takeInflightIfPeerMatches requestId peerId
  | invalidValue peerId height => exact invariant.onInvalidValue height peerId
  | valueProcessingError peerId height => exact invariant.onInvalidValue height peerId

theorem run (scorer : PeerScorer Peer) {state : State Peer Req}
    (invariant : Bookkeeping config state) (resumes : List (Resume Req))
    (inputs : List (Input Peer Req Inbound)) :
    Bookkeeping config (run scorer state resumes inputs) := by
  induction inputs generalizing state resumes with
  | nil => exact invariant
  | cons input inputs ih =>
      have handled := invariant.handle scorer resumes input
      unfold Sync.run
      dsimp only
      split
      · exact ih handled _
      · exact ih handled _
      · exact handled
      · exact handled

end Handlers

end Bookkeeping

/-- Whatever the inputs and the resumes, the ranges of the requests in flight and of the
requests pending in consensus are nonempty and pairwise apart, and hold at most
`batch_size * parallel_requests` heights. -/
theorem request_bookkeeping [DecidableEq Peer] [LinearOrder Req] (scorer : PeerScorer Peer)
    (config : Config) (resumes : List (Resume Req)) (inputs : List (Input Peer Req Inbound)) :
    let state := run scorer (State.new config) resumes inputs
    (∀ range ∈ state.ranges, range.start ≤ range.stop) ∧ state.ranges.Pairwise Apart ∧
      state.currentNumberOfHeights ≤ config.batchSize * config.parallelRequests := by
  intro state
  have invariant := (bookkeeping_new config).run scorer resumes inputs
  refine ⟨invariant.separated.nonempty, invariant.separated.pairwise, ?_⟩
  rw [currentNumberOfHeights_eq]
  exact invariant.budget

end Malachite.Sync
