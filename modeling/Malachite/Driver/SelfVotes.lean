import Malachite.Driver.Process
import Malachite.StateMachine.Outputs

namespace Malachite.Driver

/-! A driver never casts two different votes of one type for the same height
and round.  The state machine casts votes at the round it is in, and the
driver records each vote it lets through as its last of that type; a later
vote passes the filter only for a higher round or when it is the same vote.
So every vote emitted so far is covered by the last one recorded, which is the
invariant `SelfVotes`, kept by every call of the driver within one height. -/

variable {C : Context}

def Output.vote? : Output C → Option (Vote C)
  | .vote cast => some cast
  | .newRound .. | .propose .. | .decide .. | .scheduleTimeout .. | .getValue .. => none

/-- The votes among some outputs of the driver. -/
def votesOf (outputs : List (Output C)) : List (Vote C) := outputs.filterMap Output.vote?

@[simp] theorem votesOf_nil : votesOf ([] : List (Output C)) = [] := rfl

@[simp] theorem votesOf_append (first second : List (Output C)) :
    votesOf (first ++ second) = votesOf first ++ votesOf second :=
  List.filterMap_append

/-- No two of the votes are different votes of one type for one height and round. -/
def NoConflictingVotes (votes : List (Vote C)) : Prop :=
  ∀ first ∈ votes, ∀ second ∈ votes, first.voteType = second.voteType →
    first.height = second.height → first.round = second.round → first = second

def lastVote (driver : Driver C) : VoteType → Option (Vote C)
  | .prevote => driver.lastPrevote
  | .precommit => driver.lastPrecommit

/-- The recorded last vote is for a higher round than the vote, or is the vote. -/
def Covered (last : Option (Vote C)) (vote : Vote C) : Prop :=
  ∃ recorded, last = some recorded ∧ (vote.round < recorded.round ∨ vote = recorded)

/-- Every input to the state machine fails, for want of a proposer of the set. -/
def NoValidProposer (driver : Driver C) : Prop :=
  ∀ proposer, driver.proposer = some proposer → driver.validatorSet.getByAddress proposer = none

structure SelfVotes (height : C.Height) (driver : Driver C) (votes : List (Vote C)) : Prop where
  own : ∀ vote ∈ votes, vote.validatorAddress = driver.address
  atHeight : ∀ vote ∈ votes, vote.height = height
  covered : ∀ vote ∈ votes, Covered (driver.lastVote vote.voteType) vote
  lastAtHeight : ∀ voteType recorded, driver.lastVote voteType = some recorded →
    recorded.height = height
  unique : NoConflictingVotes votes
  heightOrStuck : driver.roundState.height = height ∨ NoValidProposer driver

theorem not_noValidProposer_of_getProposer {driver : Driver C} {validator : Validator C}
    (found : driver.getProposer = .ok validator) : ¬ NoValidProposer driver := by
  intro stuck
  unfold getProposer at found
  cases proposer : driver.proposer with
  | none => simp [proposer] at found
  | some address => simp [proposer, stuck address proposer] at found

theorem noValidProposer_of_getProposer {driver : Driver C} {error : Error C}
    (failed : driver.getProposer = .error error) : NoValidProposer driver := by
  intro address proposer
  unfold getProposer at failed
  rw [proposer] at failed
  cases found : driver.validatorSet.getByAddress address with
  | none => rfl
  | some validator => simp [found] at failed

theorem selfVotes_start (driver : Driver C) (prevote : driver.lastPrevote = none)
    (precommit : driver.lastPrecommit = none) : SelfVotes driver.roundState.height driver [] where
  own := by simp
  atHeight := by simp
  covered := by simp
  lastAtHeight voteType recorded stored := by
    cases voteType
    · simp [lastVote, prevote] at stored
    · simp [lastVote, precommit] at stored
  unique := by simp [NoConflictingVotes]
  heightOrStuck := Or.inl rfl

theorem SelfVotes.congr {height : C.Height} {driver driver' : Driver C} {votes : List (Vote C)}
    (inv : SelfVotes height driver votes) (address : driver'.address = driver.address)
    (lastVote : ∀ voteType, driver'.lastVote voteType = driver.lastVote voteType)
    (heightOrStuck : driver'.roundState.height = height ∨ NoValidProposer driver') :
    SelfVotes height driver' votes where
  own vote member := by
    rw [address]
    exact inv.own vote member
  atHeight := inv.atHeight
  covered vote member := by
    rw [lastVote]
    exact inv.covered vote member
  lastAtHeight voteType recorded stored := by
    rw [lastVote] at stored
    exact inv.lastAtHeight voteType recorded stored
  unique := inv.unique
  heightOrStuck := heightOrStuck

/-- The fields that decide which votes the driver may still cast. -/
structure KeepsVoting (driver driver' : Driver C) : Prop where
  address : driver'.address = driver.address
  lastPrevote : driver'.lastPrevote = driver.lastPrevote
  lastPrecommit : driver'.lastPrecommit = driver.lastPrecommit
  roundState : driver'.roundState = driver.roundState
  proposer : driver'.proposer = driver.proposer
  validatorSet : driver'.validatorSet = driver.validatorSet

theorem SelfVotes.keeps {height : C.Height} {driver driver' : Driver C} {votes : List (Vote C)}
    (inv : SelfVotes height driver votes) (keeps : KeepsVoting driver driver') :
    SelfVotes height driver' votes := by
  have sameLast : ∀ voteType, driver'.lastVote voteType = driver.lastVote voteType := by
    intro voteType
    cases voteType
    · exact keeps.lastPrevote
    · exact keeps.lastPrecommit
  have sameStuck : NoValidProposer driver' ↔ NoValidProposer driver := by
    simp only [NoValidProposer, keeps.proposer, keeps.validatorSet]
  refine inv.congr keeps.address sameLast ?_
  rw [keeps.roundState, sameStuck]
  exact inv.heightOrStuck

/-- A vote that passes the filter after the recorded one is for a higher round
than every vote the recorded one covers, or is that vote. -/
theorem covered_of_castable {height : C.Height} {last : Option (Vote C)} {vote earlier : Vote C}
    (lastAtHeight : ∀ recorded, last = some recorded → recorded.height = height)
    (atHeight : vote.height = height) (allowed : castable last vote = true)
    (covered : Covered last earlier) : earlier.round < vote.round ∨ earlier = vote := by
  obtain ⟨recorded, stored, below⟩ := covered
  subst stored
  have sameHeight : recorded.height = vote.height := by
    rw [lastAtHeight recorded rfl, atHeight]
  simp only [castable, Bool.or_eq_true, decide_eq_true_eq] at allowed
  rcases allowed with (higher | higher) | same
  · rw [sameHeight] at higher
    exact absurd higher (lt_irrefl _)
  · rcases below with lower | equal
    · exact Or.inl (lt_trans lower higher)
    · rw [equal]
      exact Or.inl higher
  · rw [← same]
    exact below

theorem lastVote_setLastVoteCast {driver : Driver C} {vote : Vote C}
    (current : vote.round = driver.round) (voteType : VoteType) :
    (driver.setLastVoteCast vote).lastVote voteType =
      if voteType = vote.voteType then some vote else driver.lastVote voteType := by
  unfold setLastVoteCast
  rw [if_pos current]
  cases kind : vote.voteType <;> cases voteType <;> rfl

theorem keepsVoting_setLastVoteCast (driver : Driver C) (vote : Vote C) :
    (driver.setLastVoteCast vote).address = driver.address ∧
      (driver.setLastVoteCast vote).roundState = driver.roundState ∧
      (driver.setLastVoteCast vote).proposer = driver.proposer ∧
      (driver.setLastVoteCast vote).validatorSet = driver.validatorSet := by
  unfold setLastVoteCast
  split
  · cases vote.voteType
    · exact ⟨rfl, rfl, rfl, rfl⟩
    · exact ⟨rfl, rfl, rfl, rfl⟩
  · exact ⟨rfl, rfl, rfl, rfl⟩

/-- Casting a vote of our current round that passes the filter keeps the invariant. -/
theorem SelfVotes.cast {height : C.Height} {driver : Driver C} {votes : List (Vote C)}
    (inv : SelfVotes height driver votes) {vote : Vote C}
    (own : vote.validatorAddress = driver.address) (atHeight : vote.height = height)
    (current : vote.round = driver.round)
    (allowed : castable (driver.lastVote vote.voteType) vote = true) :
    SelfVotes height (driver.setLastVoteCast vote) (votes ++ [vote]) := by
  obtain ⟨sameAddress, sameState, sameProposer, sameSet⟩ := keepsVoting_setLastVoteCast driver vote
  have follows : ∀ earlier ∈ votes, earlier.voteType = vote.voteType →
      earlier.round < vote.round ∨ earlier = vote := by
    intro earlier member kind
    have covered := inv.covered earlier member
    rw [kind] at covered
    exact covered_of_castable (inv.lastAtHeight vote.voteType) atHeight allowed covered
  constructor
  · intro cast member
    rw [sameAddress]
    rcases List.mem_append.mp member with earlier | added
    · exact inv.own cast earlier
    · rw [List.mem_singleton.mp added]
      exact own
  · intro cast member
    rcases List.mem_append.mp member with earlier | added
    · exact inv.atHeight cast earlier
    · rw [List.mem_singleton.mp added]
      exact atHeight
  · intro cast member
    rw [lastVote_setLastVoteCast current]
    rcases List.mem_append.mp member with earlier | added
    · split
      · rename_i kind
        rcases follows cast earlier kind with lower | equal
        · exact ⟨vote, rfl, Or.inl lower⟩
        · exact ⟨vote, rfl, Or.inr equal⟩
      · exact inv.covered cast earlier
    · rw [List.mem_singleton.mp added, if_pos rfl]
      exact ⟨vote, rfl, Or.inr rfl⟩
  · intro voteType recorded stored
    rw [lastVote_setLastVoteCast current] at stored
    split at stored
    · cases stored
      exact atHeight
    · exact inv.lastAtHeight voteType recorded stored
  · intro first firstMember second secondMember kind _ round
    rcases List.mem_append.mp firstMember with firstEarlier | firstAdded <;>
      rcases List.mem_append.mp secondMember with secondEarlier | secondAdded
    · exact inv.unique first firstEarlier second secondEarlier kind
        (by rw [inv.atHeight first firstEarlier, inv.atHeight second secondEarlier]) round
    · rw [List.mem_singleton.mp secondAdded] at kind round ⊢
      rcases follows first firstEarlier kind with lower | equal
      · exact absurd round (ne_of_lt lower)
      · exact equal
    · rw [List.mem_singleton.mp firstAdded] at kind round ⊢
      rcases follows second secondEarlier kind.symm with lower | equal
      · exact absurd round.symm (ne_of_lt lower)
      · exact equal.symm
    · rw [List.mem_singleton.mp firstAdded, List.mem_singleton.mp secondAdded]
  · rw [sameState]
    unfold NoValidProposer
    rw [sameProposer, sameSet]
    exact inv.heightOrStuck

/-- What `lift_vote_output` can do: drop the vote, or record and emit it when it
is ours and passes the filter for its type. -/
theorem liftVoteOutput_cases (driver : Driver C) (vote : Vote C) :
    driver.liftVoteOutput vote = (driver, []) ∨
      vote.validatorAddress = driver.address ∧ castable (driver.lastVote vote.voteType) vote = true ∧
        driver.liftVoteOutput vote = (driver.setLastVoteCast vote, [.vote vote]) := by
  unfold liftVoteOutput
  by_cases mine : vote.validatorAddress = driver.address
  · cases kind : vote.voteType with
    | prevote => simp [mine, lastVote]
    | precommit =>
        cases matching : matchesValid driver.roundState.valid vote
        · simp [mine]
        · simp [mine, lastVote]
  · simp [mine]

/-- Lifting an output records at most the votes cast. -/
theorem liftOutput_fst (driver : Driver C) (output : StateMachine.Output C) :
    ∃ lastPrevote lastPrecommit,
      (driver.liftOutput output).1 = { driver with lastPrevote, lastPrecommit } := by
  cases output
  case vote vote =>
    rcases liftVoteOutput_cases driver vote with dropped | ⟨-, -, emitted⟩
    · rw [liftOutput, dropped]
      exact ⟨_, _, rfl⟩
    · rw [liftOutput, emitted]
      unfold setLastVoteCast
      split
      · split
        · exact ⟨_, _, rfl⟩
        · exact ⟨_, _, rfl⟩
      · exact ⟨_, _, rfl⟩
  all_goals exact ⟨_, _, rfl⟩

theorem SelfVotes.liftVoteOutput {height : C.Height} {driver : Driver C} {votes : List (Vote C)}
    (inv : SelfVotes height driver votes) {vote : Vote C} (atHeight : vote.height = height)
    (current : vote.round = driver.round) :
    SelfVotes height (driver.liftVoteOutput vote).1
      (votes ++ votesOf (driver.liftVoteOutput vote).2) := by
  rcases liftVoteOutput_cases driver vote with dropped | ⟨own, allowed, emitted⟩
  · rw [dropped]
    simpa using inv
  · rw [emitted]
    exact inv.cast own atHeight current allowed

/-- A vote among the outputs of the state machine is of the height and round
the driver is at. -/
def FromState (height : C.Height) (driver : Driver C) (output : StateMachine.Output C) : Prop :=
  ∀ vote, output = .vote vote → vote.height = height ∧ vote.round = driver.round

theorem SelfVotes.liftOutput {height : C.Height} {driver : Driver C} {votes : List (Vote C)}
    (inv : SelfVotes height driver votes) {output : StateMachine.Output C}
    (fromState : FromState height driver output) :
    SelfVotes height (driver.liftOutput output).1 (votes ++ votesOf (driver.liftOutput output).2) := by
  cases output
  case vote vote =>
    obtain ⟨atHeight, current⟩ := fromState vote rfl
    exact inv.liftVoteOutput atHeight current
  all_goals simpa [Driver.liftOutput, votesOf, Output.vote?, List.filterMap_cons] using inv

/-- A call into the state machine keeps the invariant and casts from the round
state it leaves behind. -/
def Sound (height : C.Height) (votes : List (Vote C))
    (result : Driver C × Except (Error C) (Option (StateMachine.Output C))) : Prop :=
  SelfVotes height result.1 votes ∧
    ∀ output, result.2 = .ok (some output) → FromState height result.1 output

theorem SelfVotes.applyInput {height : C.Height} {driver : Driver C} {votes : List (Vote C)}
    (inv : SelfVotes height driver votes) (inputRound : Round) (input : StateMachine.Input C) :
    Sound height votes (driver.applyInput inputRound input) := by
  simp only [Driver.applyInput]
  cases found : ({ driver with roundState := .default } : Driver C).getProposer with
  | error error =>
      exact ⟨inv.congr rfl (fun _ => rfl) (Or.inr (noValidProposer_of_getProposer found)),
        fun _ failed => nomatch failed⟩
  | ok proposer =>
      have proposed : ¬ NoValidProposer driver :=
        @not_noValidProposer_of_getProposer C { driver with roundState := .default } proposer found
      have atHeight : driver.roundState.height = height := inv.heightOrStuck.resolve_right proposed
      have casts := StateMachine.apply_casts driver.roundState
        ⟨inputRound, driver.address, proposer.address⟩ input
      constructor
      · refine inv.congr (by simp [enterRoundState_eq]) ?_ (Or.inl ?_)
        · intro voteType
          cases voteType <;> simp [enterRoundState_eq, lastVote]
        · simp [enterRoundState_eq, casts.height, atHeight]
      · intro output emitted vote cast
        simp only [Except.ok.injEq] at emitted
        obtain ⟨voteHeight, voteRound, -⟩ := casts.vote vote (by rw [emitted, cast])
        refine ⟨by rw [voteHeight, casts.height, atHeight], ?_⟩
        simp [enterRoundState_eq, voteRound, round]

theorem keepsVoting_storeAndMultiplexProposal (driver : Driver C) (proposal : SignedProposal C)
    (validity : Validity) : KeepsVoting driver (driver.storeAndMultiplexProposal proposal validity).1 :=
  ⟨rfl, rfl, rfl, rfl, rfl, rfl⟩

theorem keepsVoting_storeAndMultiplexCommitCertificate (driver : Driver C)
    (certificate : CommitCertificate C) :
    KeepsVoting driver (driver.storeAndMultiplexCommitCertificate certificate).1 := by
  rw [storeAndMultiplexCommitCertificate_fst]
  exact ⟨rfl, rfl, rfl, rfl, rfl, rfl⟩

theorem keepsVoting_storeAndMultiplexPolkaCertificate (driver : Driver C)
    (certificate : PolkaCertificate C) :
    KeepsVoting driver (driver.storeAndMultiplexPolkaCertificate certificate).1 := by
  obtain ⟨polkaCertificates, added⟩ := addPolkaCertificate_eq driver certificate
  rw [storeAndMultiplexPolkaCertificate_fst, added]
  exact ⟨rfl, rfl, rfl, rfl, rfl, rfl⟩

theorem keepsVoting_storeThresholdCertificate (driver : Driver C)
    (output : Votes.Output C.ValueId) (voteRound thisRound : Round) :
    KeepsVoting driver (driver.storeThresholdCertificate output voteRound thisRound) := by
  obtain ⟨polkaCertificates, roundCertificate, stored⟩ :=
    storeThresholdCertificate_eq driver output voteRound thisRound
  rw [stored]
  exact ⟨rfl, rfl, rfl, rfl, rfl, rfl⟩

theorem SelfVotes.okNone {height : C.Height} {driver : Driver C} {votes : List (Vote C)}
    (inv : SelfVotes height driver votes) : Sound height votes (driver, .ok none) :=
  ⟨inv, fun _ quiet => nomatch quiet⟩

theorem SelfVotes.failed {height : C.Height} {driver : Driver C} {votes : List (Vote C)}
    (inv : SelfVotes height driver votes) (error : Error C) :
    Sound height votes (driver, .error error) :=
  ⟨inv, fun _ failed => nomatch failed⟩

theorem SelfVotes.applyCommitCertificate {height : C.Height} {driver : Driver C}
    {votes : List (Vote C)} (inv : SelfVotes height driver votes)
    (certificate : CommitCertificate C) :
    Sound height votes (driver.applyCommitCertificate certificate) := by
  unfold Driver.applyCommitCertificate
  split
  · exact inv.failed _
  · have keeps := keepsVoting_storeAndMultiplexCommitCertificate driver certificate
    generalize driver.storeAndMultiplexCommitCertificate certificate = stored at keeps ⊢
    obtain ⟨updated, input⟩ := stored
    cases input with
    | none => exact (inv.keeps keeps).okNone
    | some roundInput => exact (inv.keeps keeps).applyInput _ _

theorem SelfVotes.applyPolkaCertificate {height : C.Height} {driver : Driver C}
    {votes : List (Vote C)} (inv : SelfVotes height driver votes)
    (certificate : PolkaCertificate C) :
    Sound height votes (driver.applyPolkaCertificate certificate) := by
  unfold Driver.applyPolkaCertificate
  split
  · exact inv.failed _
  · have keeps := keepsVoting_storeAndMultiplexPolkaCertificate driver certificate
    generalize driver.storeAndMultiplexPolkaCertificate certificate = stored at keeps ⊢
    obtain ⟨updated, input⟩ := stored
    cases input with
    | none => exact (inv.keeps keeps).okNone
    | some entry => exact (inv.keeps keeps).applyInput _ _

theorem SelfVotes.applyProposal {height : C.Height} {driver : Driver C}
    {votes : List (Vote C)} (inv : SelfVotes height driver votes) (proposal : SignedProposal C)
    (validity : Validity) : Sound height votes (driver.applyProposal proposal validity) := by
  unfold Driver.applyProposal
  split
  · exact inv.failed _
  · have keeps := keepsVoting_storeAndMultiplexProposal driver proposal validity
    generalize driver.storeAndMultiplexProposal proposal validity = stored at keeps ⊢
    obtain ⟨updated, input⟩ := stored
    cases input with
    | none => exact (inv.keeps keeps).okNone
    | some roundInput => exact (inv.keeps keeps).applyInput _ _

/-- A new round of our height keeps the round state at that height. -/
theorem SelfVotes.applyNewRound {height : C.Height} {driver : Driver C} {votes : List (Vote C)}
    (inv : SelfVotes height driver votes) (round : Round) (proposer : C.Address) :
    Sound height votes (driver.applyNewRound height round proposer) := by
  unfold Driver.applyNewRound
  apply SelfVotes.applyInput
  refine inv.congr rfl (fun voteType => by cases voteType <;> rfl) (Or.inl ?_)
  by_cases same : driver.height = height
  · simp only [same, if_true, StateMachine.State.withRound_height]
    exact same
  · simp only [same, if_false]
    rfl

theorem SelfVotes.applyVote {height : C.Height} {driver : Driver C} {votes : List (Vote C)}
    (inv : SelfVotes height driver votes) (vote : SignedVote C) :
    Sound height votes (driver.applyVote vote) := by
  unfold Driver.applyVote
  split
  · exact inv.failed _
  · split
    · exact inv.failed _
    · dsimp only
      generalize driver.voteKeeper.applyVote vote driver.round = applied
      obtain ⟨voteKeeper, output⟩ := applied
      have counted : SelfVotes height { driver with voteKeeper } votes :=
        inv.keeps ⟨rfl, rfl, rfl, rfl, rfl, rfl⟩
      cases output with
      | none => exact counted.okNone
      | some output =>
          have stored := counted.keeps (keepsVoting_storeThresholdCertificate
            { driver with voteKeeper } output vote.message.round driver.round)
          dsimp only
          split
          · exact stored.okNone
          · exact stored.applyInput _ _

theorem SelfVotes.applyTimeout {height : C.Height} {driver : Driver C} {votes : List (Vote C)}
    (inv : SelfVotes height driver votes) (timeout : Timeout) :
    Sound height votes (driver.applyTimeout timeout) := by
  unfold Driver.applyTimeout
  cases timeout.kind with
  | propose => exact inv.applyInput _ _
  | prevote => exact inv.applyInput _ _
  | precommit => exact inv.applyInput _ _
  | rebroadcast => exact inv.okNone

theorem SelfVotes.apply {height : C.Height} {driver : Driver C} {votes : List (Vote C)}
    (inv : SelfVotes height driver votes) (input : Input C)
    (withinHeight : ∀ newHeight round proposer, input = .newRound newHeight round proposer →
      newHeight = height) :
    Sound height votes (driver.apply input) := by
  cases input with
  | newRound newHeight round proposer =>
      rw [withinHeight newHeight round proposer rfl]
      exact inv.applyNewRound round proposer
  | proposeValue round value => exact inv.applyInput round (.proposeValue value)
  | proposal proposal validity => exact inv.applyProposal proposal validity
  | vote vote => exact inv.applyVote vote
  | commitCertificate certificate => exact inv.applyCommitCertificate certificate
  | polkaCertificate certificate => exact inv.applyPolkaCertificate certificate
  | timeoutElapsed timeout => exact inv.applyTimeout timeout

/-- After a call, the invariant holds of a list of votes that holds the votes
covered before and the votes the call emits. -/
def Covers (height : C.Height) (votes : List (Vote C))
    (result : Driver C × Except (Error C) (List (Output C))) : Prop :=
  ∃ grown, votes ⊆ grown ∧ SelfVotes height result.1 grown ∧
    ∀ outputs, result.2 = .ok outputs → votesOf outputs ⊆ grown

theorem SelfVotes.covers {height : C.Height} {driver : Driver C} {votes : List (Vote C)}
    (inv : SelfVotes height driver votes) {outputs : List (Output C)}
    (emitted : votesOf outputs ⊆ votes) : Covers height votes (driver, .ok outputs) :=
  ⟨votes, List.Subset.refl _, inv, fun _ done => by
    cases done
    exact emitted⟩

theorem SelfVotes.coversFailed {height : C.Height} {driver : Driver C} {votes : List (Vote C)}
    (inv : SelfVotes height driver votes) (error : Error C) :
    Covers height votes (driver, .error error) :=
  ⟨votes, List.Subset.refl _, inv, fun _ failed => nomatch failed⟩

theorem Covers.grow {height : C.Height} {votes more : List (Vote C)}
    {result : Driver C × Except (Error C) (List (Output C))}
    (covers : Covers height (votes ++ more) result) : Covers height votes result := by
  obtain ⟨grown, larger, inv, emitted⟩ := covers
  exact ⟨grown, fun vote member => larger (List.mem_append_left more member), inv, emitted⟩

theorem votesOf_append_subset {outputs lifted : List (Output C)} {votes : List (Vote C)}
    (emitted : votesOf outputs ⊆ votes) :
    votesOf (outputs ++ lifted) ⊆ votes ++ votesOf lifted := by
  intro vote member
  rw [votesOf_append] at member
  rcases List.mem_append.mp member with earlier | added
  · exact List.mem_append_left _ (emitted earlier)
  · exact List.mem_append_right _ added

/-- A pass of the pending-input loop: by induction on the batch, each input
applied keeps the invariant and each output lifted extends the covered votes. -/
theorem SelfVotes.applyPendingBatch {height : C.Height} (batch : List (Round × StateMachine.Input C)) :
    ∀ {driver : Driver C} {outputs : List (Output C)} {votes : List (Vote C)},
      SelfVotes height driver votes → votesOf outputs ⊆ votes →
      Covers height votes (driver.applyPendingBatch outputs batch) := by
  induction batch with
  | nil =>
      intro driver outputs votes inv emitted
      exact inv.covers emitted
  | cons entry rest ih =>
      intro driver outputs votes inv emitted
      obtain ⟨inputRound, input⟩ := entry
      obtain ⟨applied, fromState⟩ := inv.applyInput inputRound input
      simp only [Driver.applyPendingBatch]
      generalize driver.applyInput inputRound input = result at applied fromState ⊢
      obtain ⟨updated, outcome⟩ := result
      cases outcome with
      | error error => exact applied.coversFailed error
      | ok output =>
          cases output with
          | none => exact ih applied emitted
          | some output =>
              have lifted := applied.liftOutput (fromState output rfl)
              dsimp only
              generalize updated.liftOutput output = liftResult at lifted ⊢
              obtain ⟨lifter, more⟩ := liftResult
              exact (ih lifted (votesOf_append_subset emitted)).grow

/-- The pending-input loop, by induction on its passes. -/
theorem SelfVotes.drainPending {height : C.Height} (fuel : Nat) :
    ∀ {driver : Driver C} {outputs : List (Output C)} {votes : List (Vote C)},
      SelfVotes height driver votes → votesOf outputs ⊆ votes →
      Covers height votes (drainPending fuel driver outputs) := by
  induction fuel with
  | zero =>
      intro driver outputs votes inv emitted
      exact inv.covers emitted
  | succ fuel ih =>
      intro driver outputs votes inv emitted
      simp only [Driver.drainPending]
      split
      · exact inv.covers emitted
      · have taken : SelfVotes height { driver with pendingInputs := [] } votes :=
          inv.keeps ⟨rfl, rfl, rfl, rfl, rfl, rfl⟩
        obtain ⟨grown, larger, passed, covered⟩ :=
          SelfVotes.applyPendingBatch driver.pendingInputs taken emitted
        generalize ({ driver with pendingInputs := [] } : Driver C).applyPendingBatch outputs
          driver.pendingInputs = result at passed covered ⊢
        obtain ⟨updated, outcome⟩ := result
        cases outcome with
        | error error => exact ⟨grown, larger, passed, fun _ failed => nomatch failed⟩
        | ok outputs =>
            obtain ⟨final, largest, drained, emittedFinal⟩ := ih passed (covered outputs rfl)
            exact ⟨final, List.Subset.trans larger largest, drained, emittedFinal⟩

theorem SelfVotes.process {height : C.Height} {driver : Driver C} {votes : List (Vote C)}
    (inv : SelfVotes height driver votes) (input : Input C)
    (withinHeight : ∀ newHeight round proposer, input = .newRound newHeight round proposer →
      newHeight = height) :
    Covers height votes (driver.process input) := by
  obtain ⟨applied, fromState⟩ := inv.apply input withinHeight
  unfold Driver.process
  generalize driver.apply input = result at applied fromState ⊢
  obtain ⟨updated, outcome⟩ := result
  cases outcome with
  | error error => exact applied.coversFailed error
  | ok output =>
      cases output with
      | none => exact applied.covers (by simp)
      | some output =>
          have lifted := applied.liftOutput (fromState output rfl)
          dsimp only
          generalize updated.liftOutput output = liftResult at lifted ⊢
          obtain ⟨lifter, outputs⟩ := liftResult
          exact (SelfVotes.drainPending pendingBatches lifted
            (fun _ member => List.mem_append_right _ member)).grow

/-- A run within one height, by induction on its inputs. -/
theorem SelfVotes.run {height : C.Height} (inputs : List (Input C)) :
    ∀ {driver : Driver C} {votes : List (Vote C)}, SelfVotes height driver votes →
      (∀ input ∈ inputs, ∀ newHeight round proposer, input = .newRound newHeight round proposer →
        newHeight = height) →
      ∃ grown, votes ⊆ grown ∧ SelfVotes height (driver.run inputs).1 grown ∧
        votesOf (driver.run inputs).2 ⊆ grown := by
  induction inputs with
  | nil =>
      intro driver votes inv _
      exact ⟨votes, List.Subset.refl _, inv, by simp [Driver.run]⟩
  | cons input rest ih =>
      intro driver votes inv withinHeight
      obtain ⟨grown, larger, processed, emitted⟩ :=
        inv.process input (withinHeight input List.mem_cons_self)
      simp only [Driver.run]
      generalize driver.process input = result at processed emitted ⊢
      obtain ⟨updated, outcome⟩ := result
      obtain ⟨final, largest, ran, later⟩ :=
        ih processed (fun input member => withinHeight input (List.mem_cons_of_mem _ member))
      refine ⟨final, List.Subset.trans larger largest, ran, ?_⟩
      intro vote member
      rw [votesOf_append] at member
      rcases List.mem_append.mp member with now | afterwards
      · cases outcome with
        | ok outputs => exact largest (emitted outputs rfl now)
        | error error => simp [votesOf] at now
      · exact later afterwards

/-- No self-equivocation: over any run within the height of a driver that has
cast no vote yet, the votes it emits hold no two different votes of one type
for the same height and round. -/
theorem run_emits_no_conflicting_votes (start : Driver C) (inputs : List (Input C))
    (noPrevote : start.lastPrevote = none) (noPrecommit : start.lastPrecommit = none)
    (withinHeight : ∀ input ∈ inputs, ∀ newHeight round proposer,
      input = .newRound newHeight round proposer → newHeight = start.height) :
    NoConflictingVotes (votesOf (start.run inputs).2) := by
  obtain ⟨grown, -, ran, emitted⟩ :=
    SelfVotes.run inputs (selfVotes_start start noPrevote noPrecommit) withinHeight
  intro first firstMember second secondMember
  exact ran.unique first (emitted firstMember) second (emitted secondMember)

theorem fresh_driver_no_conflicting_votes :
    (Driver.new 0 fourValidators 0 .default : Driver testContext).lastPrevote = none ∧
      (Driver.new 0 fourValidators 0 .default : Driver testContext).lastPrecommit = none ∧
      (∀ input ∈ ([.newRound 0 (.some 0) 1, .timeoutElapsed (Timeout.propose (.some 0))] :
          List (Input testContext)), ∀ newHeight round proposer, input = Input.newRound newHeight round proposer →
          newHeight = (Driver.new 0 fourValidators 0 .default : Driver testContext).height) ∧
      NoConflictingVotes (votesOf ((Driver.new 0 fourValidators 0 .default : Driver testContext).run
        [.newRound 0 (.some 0) 1, .timeoutElapsed (Timeout.propose (.some 0))]).2) := by
  have withinHeight : ∀ input ∈ ([.newRound 0 (.some 0) 1,
      .timeoutElapsed (Timeout.propose (.some 0))] : List (Input testContext)),
      ∀ newHeight round proposer,
      input = Input.newRound newHeight round proposer →
        newHeight = (Driver.new 0 fourValidators 0 .default : Driver testContext).height := by
    intro input member newHeight round proposer same
    simp only [List.mem_cons, List.not_mem_nil, or_false] at member
    rcases member with rfl | rfl
    · cases same
      rfl
    · cases same
  exact ⟨rfl, rfl, withinHeight, run_emits_no_conflicting_votes _ _ rfl rfl withinHeight⟩

end Malachite.Driver
