import Malachite.Driver.Lock
import Malachite.Driver.SelfVotes

namespace Malachite

/-! What backs a decision (L49).  The state machine decides on
`ProposalAndPrecommitValue`, in any step and round; the multiplexer sends it
from a stored commit certificate or a quorum of precommits, with a proposal
reported valid.  The proposal keeper keeps the validity a signed proposal was
first stored with, so the proposal decided on is stored, valid, or vouched
valid by the input that triggered the decision. -/

variable {C : Context}

namespace Proposals.ProposalKeeper

/-- Each round's entry holds proposals of that round. -/
def RoundsMatch (keeper : ProposalKeeper C) : Prop :=
  ∀ round entry, entry ∈ keeper.getProposalsAndValiditiesForRound round →
    entry.1.message.round = round

theorem roundsMatch_new : (new : ProposalKeeper C).RoundsMatch := by
  intro round entry member
  simp [getProposalsAndValiditiesForRound, new] at member

theorem mem_of_getProposalAndValidityForRoundAndValue {keeper : ProposalKeeper C} {round : Round}
    {valueId : C.ValueId} {entry : SignedProposal C × Validity}
    (found : keeper.getProposalAndValidityForRoundAndValue round valueId = some entry) :
    entry ∈ keeper.getProposalsAndValiditiesForRound round ∧
      C.id entry.1.message.value = valueId := by
  unfold getProposalAndValidityForRoundAndValue at found
  cases known : KeyMap.get? keeper.perRound round with
  | none => simp [known] at found
  | some perRound =>
      simp only [known, Option.bind_some, PerRound.getFirstProposalAndValidity] at found
      refine ⟨?_, by simpa using List.find?_some found⟩
      simpa [getProposalsAndValiditiesForRound, known] using List.mem_of_find?_eq_some found

theorem getProposalsAndValiditiesForRound_eq (keeper : ProposalKeeper C) (round : Round) :
    keeper.getProposalsAndValiditiesForRound round =
      ((KeyMap.get? keeper.perRound round).getD .new).proposals := by
  unfold getProposalsAndValiditiesForRound
  cases KeyMap.get? keeper.perRound round <;> rfl

theorem PerRound.add_proposals (perRound : PerRound C) (proposal : SignedProposal C)
    (validity : Validity) :
    (perRound.add proposal validity).1.proposals = perRound.proposals ∨
      (perRound.add proposal validity).1.proposals = perRound.proposals ++ [(proposal, validity)] := by
  unfold PerRound.add
  split
  · exact Or.inl rfl
  · cases held : perRound.proposals with
    | nil => exact Or.inr (by simp)
    | cons first rest => exact Or.inr (by simp)

theorem PerRound.exists_mem_add (perRound : PerRound C) (proposal : SignedProposal C)
    (validity : Validity) :
    ∃ stored, (proposal, stored) ∈ (perRound.add proposal validity).1.proposals := by
  by_cases present : perRound.proposals.any (fun entry => entry.1 = proposal)
  · obtain ⟨entry, member, same⟩ := List.any_eq_true.mp present
    refine ⟨entry.2, ?_⟩
    simp only [PerRound.add, present, if_true]
    rw [← of_decide_eq_true same]
    exact member
  · refine ⟨validity, ?_⟩
    simp only [PerRound.add, present]
    cases held : perRound.proposals with
    | nil => simp
    | cons first rest => simp

theorem getProposalsAndValiditiesForRound_storeProposal (keeper : ProposalKeeper C)
    (proposal : SignedProposal C) (validity : Validity) (round : Round) :
    (keeper.storeProposal proposal validity).getProposalsAndValiditiesForRound round =
      if proposal.message.round = round then
        (((KeyMap.get? keeper.perRound round).getD .new).add proposal validity).1.proposals
      else keeper.getProposalsAndValiditiesForRound round := by
  unfold storeProposal
  dsimp only
  by_cases same : proposal.message.round = round
  · subst same
    split <;> simp [getProposalsAndValiditiesForRound_eq]
  · split <;> simp [getProposalsAndValiditiesForRound_eq, KeyMap.get?_insert, same]

theorem mem_storeProposal_of_mem {keeper : ProposalKeeper C} (proposal : SignedProposal C)
    (validity : Validity) {round : Round} {entry : SignedProposal C × Validity}
    (member : entry ∈ keeper.getProposalsAndValiditiesForRound round) :
    entry ∈ (keeper.storeProposal proposal validity).getProposalsAndValiditiesForRound round := by
  rw [getProposalsAndValiditiesForRound_storeProposal]
  split
  · have held : entry ∈ ((KeyMap.get? keeper.perRound round).getD .new).proposals := by
      rwa [getProposalsAndValiditiesForRound_eq] at member
    rcases PerRound.add_proposals ((KeyMap.get? keeper.perRound round).getD .new) proposal
      validity with kept | appended
    · rw [kept]
      exact held
    · rw [appended]
      exact List.mem_append_left _ held
  · exact member

theorem exists_mem_storeProposal (keeper : ProposalKeeper C) (proposal : SignedProposal C)
    (validity : Validity) :
    ∃ stored, (proposal, stored) ∈
      (keeper.storeProposal proposal validity).getProposalsAndValiditiesForRound
        proposal.message.round := by
  rw [getProposalsAndValiditiesForRound_storeProposal, if_pos rfl]
  exact PerRound.exists_mem_add _ proposal validity

theorem RoundsMatch.storeProposal {keeper : ProposalKeeper C} (matched : keeper.RoundsMatch)
    (proposal : SignedProposal C) (validity : Validity) :
    (keeper.storeProposal proposal validity).RoundsMatch := by
  intro round entry member
  rw [getProposalsAndValiditiesForRound_storeProposal] at member
  split at member
  · next same =>
      rcases PerRound.add_proposals ((KeyMap.get? keeper.perRound round).getD .new) proposal
        validity with kept | appended
      · rw [kept] at member
        exact matched round entry (by rwa [getProposalsAndValiditiesForRound_eq])
      · rw [appended] at member
        rcases List.mem_append.mp member with held | added
        · exact matched round entry (by rwa [getProposalsAndValiditiesForRound_eq])
        · rw [List.mem_singleton.mp added]
          exact same
  · exact matched round entry member

end Proposals.ProposalKeeper

namespace Votes

theorem VoteCount.get_le_add (count : VoteCount C) (vote : Vote C) (weight : Nat)
    (value : NilOrVal C.ValueId) : count.get value ≤ (count.add vote weight).1.get value := by
  by_cases counted : vote.validatorAddress ∈ count.validatorAddresses
  · rw [VoteCount.add_of_mem weight counted]
  · rw [VoteCount.get_add_of_not_mem weight counted]
    split
    · next same =>
        rw [same]
        omega
    · exact Nat.le_refl _

theorem RoundVotes.isThresholdMet_addVote {votes : RoundVotes C} (vote : Vote C) (weight : Nat)
    {voteType : VoteType} {value : C.ValueId} {param : ThresholdParam} {total : Nat}
    (met : votes.isThresholdMet voteType (.value value) param total = true) :
    (votes.addVote vote weight).1.isThresholdMet voteType (.value value) param total = true := by
  rw [RoundVotes.isThresholdMet_eq] at met ⊢
  rw [RoundVotes.addVote_count]
  split
  · exact ThresholdParam.isMet_mono met (VoteCount.get_le_add _ vote weight (.val value))
  · exact met

theorem thresholdToOutput_eq_precommitValue {voteType : VoteType}
    {threshold : Threshold C.ValueId} {value : C.ValueId}
    (emitted : thresholdToOutput voteType threshold = some (.precommitValue value)) :
    voteType = .precommit ∧ threshold = .value value := by
  cases voteType <;> cases threshold <;> simp_all [thresholdToOutput]

theorem computeThreshold_eq_value {voteType : VoteType} {perRound : PerRound C}
    {value : NilOrVal C.ValueId} {thresholds : ThresholdParams} {total : Nat} {valueId : C.ValueId}
    (reached : computeThreshold voteType perRound value thresholds total = .value valueId) :
    thresholds.quorum.isMet (perRound.votes.getWeight voteType (.val valueId)) total = true := by
  unfold computeThreshold at reached
  cases value with
  | nil =>
      dsimp only at reached
      split_ifs at reached
  | val proposed =>
      dsimp only at reached
      split_ifs at reached with met
      cases reached
      exact met

namespace VoteKeeper

theorem isThresholdMet_setPerRound (keeper : VoteKeeper C) (round wanted : Round)
    (perRound : PerRound C) (voteType : VoteType) (threshold : Threshold C.ValueId) :
    (keeper.setPerRound round perRound).isThresholdMet wanted voteType threshold =
      if round = wanted then
        perRound.votes.isThresholdMet voteType threshold keeper.thresholdParams.quorum
          keeper.totalWeight
      else keeper.isThresholdMet wanted voteType threshold := by
  unfold isThresholdMet
  rw [getPerRound_setPerRound]
  by_cases same : round = wanted
  · rw [if_pos same, if_pos same]
    rfl
  · rw [if_neg same, if_neg same]
    rfl

/-- A value threshold once met stays met: applying a vote only adds weight. -/
theorem isThresholdMet_applyVote {keeper : VoteKeeper C} (vote : SignedVote C) (round : Round)
    {wanted : Round} {voteType : VoteType} {value : C.ValueId}
    (met : keeper.isThresholdMet wanted voteType (.value value) = true) :
    (keeper.applyVote vote round).1.isThresholdMet wanted voteType (.value value) = true := by
  let stored := (keeper.getPerRound vote.message.round).getD .new
  have opened : (keeper.setPerRound vote.message.round stored).isThresholdMet wanted voteType
      (.value value) = true := by
    rw [isThresholdMet_setPerRound]
    split
    · next same =>
        subst same
        unfold isThresholdMet at met
        cases found : keeper.getPerRound vote.message.round with
        | none => simp [found] at met
        | some perRound => simpa [stored, found] using met
    · exact met
  rcases applyVote_keeper keeper vote round with kept | ⟨evidence, withEvidence⟩ |
      ⟨validator, recorded, updated, -, added, sameVotes, -, -, stepped⟩
  · rw [kept]
    exact opened
  · rw [withEvidence]
    exact opened
  · rw [stepped, isThresholdMet_setPerRound]
    split
    · next same =>
        have grown := RoundVotes.isThresholdMet_addVote vote.message validator.votingPower
          (by rwa [isThresholdMet_setPerRound, if_pos same] at opened)
        rw [sameVotes, (PerRound.add_eq_ok added).1]
        exact grown
    · exact opened

/-- A precommit value output rests on a quorum of precommits for the value in
the vote's round. -/
theorem applyVote_precommitValue {keeper : VoteKeeper C} {vote : SignedVote C} {round : Round}
    {value : C.ValueId} (emitted : (keeper.applyVote vote round).2 = some (.precommitValue value)) :
    (keeper.applyVote vote round).1.isThresholdMet vote.message.round .precommit
      (.value value) = true := by
  unfold applyVote at emitted ⊢
  simp only [setPerRound_validatorSet] at emitted ⊢
  cases known : keeper.validatorSet.getByAddress vote.message.validatorAddress with
  | none => simp [known] at emitted
  | some validator =>
      simp only [known] at emitted ⊢
      cases added : ((keeper.getPerRound vote.message.round).getD .new).add vote
          validator.votingPower with
      | error conflict =>
          cases conflict
          simp [added] at emitted
      | ok recorded =>
          simp only [added] at emitted ⊢
          revert emitted
          split
          · simp
          · split
            · next output threshold =>
                split
                · simp
                · intro emitted
                  simp only [Option.some.injEq] at emitted
                  subst emitted
                  obtain ⟨precommit, reached⟩ := thresholdToOutput_eq_precommitValue threshold
                  have quorum := computeThreshold_eq_value reached
                  rw [precommit] at quorum
                  simp [isThresholdMet_setPerRound, RoundVotes.isThresholdMet,
                    VoteCount.isThresholdMet, totalWeight]
                  exact quorum
            · simp

end VoteKeeper

end Votes

namespace StateMachine

/-- A decision is output only on `ProposalAndPrecommitValue` for the proposal
decided, and the transition commits it. -/
def Transition.DecidesOn (input : Input C) (transition : Transition C) : Prop :=
  ∀ round proposal, transition.output = some (.decision round proposal) →
    input = .proposalAndPrecommitValue proposal ∧
      transition.nextState.decision = some ⟨proposal.value, proposal.round⟩ ∧
      transition.nextState.step = .commit

theorem commit_decidesOn (state : State C) (round : Round) (proposal : Proposal C) :
    (commit state round proposal).DecidesOn (.proposalAndPrecommitValue proposal) := by
  unfold Transition.DecidesOn commit
  split
  · split <;> simp
  · intro decisionRound decided emitted
    simp only [Transition.withOutput_output, Option.some.injEq, Output.decision.injEq] at emitted
    obtain ⟨-, rfl⟩ := emitted
    simp

/-- L49 is the only rule that decides. -/
theorem apply_decidesOn (state : State C) (info : Info C) (input : Input C) :
    (apply state info input).DecidesOn input := by
  unfold apply
  split
  all_goals first
    | exact commit_decidesOn _ _ _
    | intro round proposal decided
      simp only [proposeValidOrGetValue, scheduleTimeoutPropose, propose, prevote,
        prevotePrevious, prevoteNil, precommit, precommitNil, scheduleTimeoutPrevote,
        scheduleTimeoutPrecommit, setValidValue, roundSkip] at decided
      repeat' split at decided
      all_goals simp_all

end StateMachine

namespace Driver

/-- A commit certificate, or a quorum of precommits, for the proposal's value
at its round. -/
def Certified (driver : Driver C) (proposal : Proposal C) : Prop :=
  (driver.commitCertificate proposal.round (C.id proposal.value)).isSome ∨
    driver.voteKeeper.isThresholdMet proposal.round .precommit (.value (C.id proposal.value))

/-- The proposal keeper holds the proposal at its round, stored as valid or
reported valid by the input being processed. -/
def Vouched (driver : Driver C) (input : Input C) (proposal : Proposal C) : Prop :=
  ∃ signedProposal validity, signedProposal.message = proposal ∧
    (signedProposal, validity) ∈ driver.proposalsAndValiditiesForRound proposal.round ∧
    (validity = .valid ∨ input = .proposal signedProposal .valid)

/-- What a decision on `proposal` made while processing `input` rests on. -/
structure Justified (driver : Driver C) (input : Input C) (proposal : Proposal C) : Prop where
  vouched : Vouched driver input proposal
  certified : Certified driver proposal
  decided : driver.roundState.decision = some ⟨proposal.value, proposal.round⟩

/-- The records a decision rests on only grow. -/
structure Grows (driver driver' : Driver C) : Prop where
  proposals : ∀ round entry, entry ∈ driver.proposalsAndValiditiesForRound round →
    entry ∈ driver'.proposalsAndValiditiesForRound round
  certificates : ∀ round valueId, (driver.commitCertificate round valueId).isSome →
    (driver'.commitCertificate round valueId).isSome
  quorums : ∀ round valueId, driver.voteKeeper.isThresholdMet round .precommit (.value valueId) →
    driver'.voteKeeper.isThresholdMet round .precommit (.value valueId)

theorem Grows.refl (driver : Driver C) : Grows driver driver :=
  ⟨fun _ _ => id, fun _ _ => id, fun _ _ => id⟩

theorem Grows.trans {driver driver' driver'' : Driver C} (first : Grows driver driver')
    (second : Grows driver' driver'') : Grows driver driver'' :=
  ⟨fun round entry member => second.proposals round entry (first.proposals round entry member),
    fun round valueId found => second.certificates round valueId (first.certificates round valueId found),
    fun round valueId met => second.quorums round valueId (first.quorums round valueId met)⟩

theorem Vouched.grow {driver driver' : Driver C} {input : Input C} {proposal : Proposal C}
    (vouched : Vouched driver input proposal) (grows : Grows driver driver') :
    Vouched driver' input proposal := by
  obtain ⟨signedProposal, validity, message, member, valid⟩ := vouched
  exact ⟨signedProposal, validity, message, grows.proposals _ _ member, valid⟩

theorem Certified.grow {driver driver' : Driver C} {proposal : Proposal C}
    (certified : Certified driver proposal) (grows : Grows driver driver') :
    Certified driver' proposal := by
  rcases certified with stored | quorum
  · exact Or.inl (grows.certificates _ _ stored)
  · exact Or.inr (grows.quorums _ _ quorum)

/-- An input to the state machine that would decide is justified. -/
def Backs (driver : Driver C) (input : Input C) (roundInput : StateMachine.Input C) : Prop :=
  ∀ proposal, roundInput = .proposalAndPrecommitValue proposal →
    Vouched driver input proposal ∧ Certified driver proposal

theorem Backs.grow {driver driver' : Driver C} {input : Input C}
    {roundInput : StateMachine.Input C} (backed : Backs driver input roundInput)
    (grows : Grows driver driver') : Backs driver' input roundInput := by
  intro proposal decides
  obtain ⟨vouched, certified⟩ := backed proposal decides
  exact ⟨vouched.grow grows, certified.grow grows⟩

theorem backs_of_not_decides {driver : Driver C} {input : Input C}
    {roundInput : StateMachine.Input C}
    (other : ∀ proposal, roundInput ≠ .proposalAndPrecommitValue proposal) :
    Backs driver input roundInput :=
  fun proposal decides => absurd decides (other proposal)

/-- The invariant of a driver between calls: its proposals are stored at their
rounds, and its pending inputs are backed whatever the input processed. -/
structure Settled (driver : Driver C) : Prop where
  roundsMatch : driver.proposalKeeper.RoundsMatch
  pending : ∀ entry ∈ driver.pendingInputs, ∀ input, Backs driver input entry.2

theorem settled_new (height : C.Height) (validatorSet : ValidatorSet C) (address : C.Address)
    (thresholdParams : ThresholdParams) :
    Settled (Driver.new height validatorSet address thresholdParams) :=
  ⟨Proposals.ProposalKeeper.roundsMatch_new, fun _ member => (List.not_mem_nil member).elim⟩

/-- A decided driver: the round state has committed the justified decision,
and the proposer is known. -/
structure Decided (driver : Driver C) (input : Input C) (proposal : Proposal C) : Prop
    extends Justified driver input proposal where
  committed : driver.roundState.step = .commit
  proposed : ∃ proposer, driver.getProposer = .ok proposer

theorem Decided.withLastVotes {driver : Driver C} {input : Input C} {proposal : Proposal C}
    (decided : Decided driver input proposal) (lastPrevote lastPrecommit : Option (Vote C)) :
    Decided { driver with lastPrevote, lastPrecommit } input proposal :=
  { decided with }

theorem Decided.withoutPending {driver : Driver C} {input : Input C} {proposal : Proposal C}
    (decided : Decided driver input proposal) :
    Decided { driver with pendingInputs := [] } input proposal :=
  { decided with }

/-- A decided driver is left as it is by every input to the state machine. -/
theorem Decided.applyInput {driver : Driver C} {input : Input C} {proposal : Proposal C}
    (decided : Decided driver input proposal) (inputRound : Round)
    (roundInput : StateMachine.Input C) :
    driver.applyInput inputRound roundInput = (driver, .ok none) := by
  obtain ⟨proposer, found⟩ := decided.proposed
  rcases applyInput_of_commit driver inputRound roundInput decided.committed with
    ⟨error, failed⟩ | quiet
  · have reset : ({ driver with roundState := .default } : Driver C).getProposer = .ok proposer :=
      getProposer_ok_of_same found rfl rfl
    rw [applyInput_of_getProposer_ok driver inputRound roundInput reset] at failed
    cases failed
  · exact quiet

/-- A proposal the multiplexer decides on is reported valid and certified. -/
theorem multiplexProposal_precommitValue {driver : Driver C} {proposal decided : Proposal C}
    {validity : Validity}
    (multiplexed : driver.multiplexProposal proposal validity =
      some (.proposalAndPrecommitValue decided)) :
    decided = proposal ∧ validity = .valid ∧ Certified driver proposal := by
  unfold multiplexProposal at multiplexed
  cases validity with
  | invalid =>
      simp only [Validity.isValid, Bool.not_false, if_true] at multiplexed
      split_ifs at multiplexed <;> simp at multiplexed
  | valid =>
      simp only [Validity.isValid, Bool.not_true, Bool.false_eq_true, if_false] at multiplexed
      split_ifs at multiplexed with unstarted certificate quorum
      · simp only [Bool.and_eq_true] at certificate
        exact ⟨(StateMachine.Input.proposalAndPrecommitValue.inj (Option.some.inj multiplexed)).symm,
          rfl, Or.inl certificate.2⟩
      · simp only [Bool.and_eq_true] at quorum
        exact ⟨(StateMachine.Input.proposalAndPrecommitValue.inj (Option.some.inj multiplexed)).symm,
          rfl, Or.inr quorum.1⟩
      all_goals simp at multiplexed

/-- The multiplexer decides on a threshold only for a quorum of precommits for
a value whose proposal at the threshold round is stored as valid. -/
theorem multiplexVoteThreshold_precommitValue {driver : Driver C}
    {threshold : Votes.Output C.ValueId} {thresholdRound : Round} {decided : Proposal C}
    (multiplexed : (driver.multiplexVoteThreshold threshold thresholdRound).2 =
      .proposalAndPrecommitValue decided) :
    ∃ valueId signedProposal, threshold = .precommitValue valueId ∧
      driver.proposalAndValidityForRoundAndValue thresholdRound valueId =
        some (signedProposal, .valid) ∧ signedProposal.message = decided := by
  cases threshold with
  | precommitValue valueId =>
      simp only [multiplexVoteThreshold] at multiplexed
      revert multiplexed
      split
      · next signedProposal validity found =>
          cases validity with
          | valid =>
              intro multiplexed
              exact ⟨valueId, signedProposal, rfl, found,
                StateMachine.Input.proposalAndPrecommitValue.inj multiplexed⟩
          | invalid => simp [Validity.isValid]
      · simp
  | polkaValue valueId =>
      simp only [multiplexVoteThreshold] at multiplexed
      revert multiplexed
      split
      · split
        · split_ifs <;> simp
        · split_ifs <;> simp
      · simp
  | polkaAny => simp [multiplexVoteThreshold] at multiplexed
  | polkaNil => simp [multiplexVoteThreshold] at multiplexed
  | precommitAny => simp [multiplexVoteThreshold] at multiplexed
  | skipRound round => simp [multiplexVoteThreshold] at multiplexed

theorem findNonValueThreshold_ne_precommitValue {voteKeeper : Votes.VoteKeeper C} {round : Round}
    {threshold : Votes.Output C.ValueId} (found : findNonValueThreshold voteKeeper round = some threshold)
    (valueId : C.ValueId) : threshold ≠ .precommitValue valueId := by
  unfold findNonValueThreshold at found
  split_ifs at found <;> cases found <;> simp

/-- A decision drawn from a threshold is backed when the driver holds the
quorum of precommits the threshold reports. -/
theorem backs_multiplexVoteThreshold {driver : Driver C}
    (matched : driver.proposalKeeper.RoundsMatch) (input : Input C)
    {threshold : Votes.Output C.ValueId} {thresholdRound : Round}
    (quorum : ∀ valueId, threshold = .precommitValue valueId →
      driver.voteKeeper.isThresholdMet thresholdRound .precommit (.value valueId)) :
    Backs driver input (driver.multiplexVoteThreshold threshold thresholdRound).2 := by
  intro proposal decides
  obtain ⟨valueId, signedProposal, precommit, found, message⟩ :=
    multiplexVoteThreshold_precommitValue decides
  obtain ⟨member, identified⟩ :=
    Proposals.ProposalKeeper.mem_of_getProposalAndValidityForRoundAndValue found
  have atRound : proposal.round = thresholdRound := message ▸ matched _ _ member
  subst message
  refine ⟨⟨signedProposal, .valid, rfl, atRound ▸ member, Or.inl rfl⟩, Or.inr ?_⟩
  rw [atRound, identified]
  exact quorum valueId precommit

/-- The inputs due on a change of step are backed: a proposal is decided on
only as it is stored, valid and certified, and a threshold only with its
quorum. -/
theorem backs_multiplexStepChange {driver : Driver C}
    (matched : driver.proposalKeeper.RoundsMatch) (round : Round) :
    ∀ entry ∈ driver.multiplexStepChange round, ∀ input, Backs driver input entry.2 := by
  intro entry member input
  unfold multiplexStepChange at member
  rcases List.mem_append.mp member with fromProposal | nonValue
  · obtain ⟨⟨signedProposal, validity⟩, stored, emitted⟩ := List.mem_filterMap.mp fromProposal
    dsimp only at emitted
    split at emitted
    · -- the propose step: the proposal itself
      obtain ⟨roundInput, multiplexed, rfl⟩ := Option.map_eq_some_iff.mp emitted
      intro proposal decides
      dsimp only at decides
      rw [decides] at multiplexed
      obtain ⟨rfl, rfl, certified⟩ := multiplexProposal_precommitValue multiplexed
      have atRound : signedProposal.message.round = round := matched _ _ stored
      exact ⟨⟨signedProposal, .valid, rfl, atRound ▸ stored, Or.inl rfl⟩, certified⟩
    · -- the prevote step: a polka for the proposal's value
      split at emitted
      · cases emitted
        exact backs_multiplexVoteThreshold matched input (fun _ polka => nomatch polka)
      · cases emitted
    · cases emitted
  · obtain ⟨threshold, found, rfl⟩ := Option.map_eq_some_iff.mp (Option.mem_toList.mp nonValue)
    exact backs_multiplexVoteThreshold matched input
      (fun valueId same => absurd same (findNonValueThreshold_ne_precommitValue found valueId))

/-- What a call into the state machine leaves: the records grown, the
invariant kept, and a decision it outputs decided in the driver it returns. -/
structure Applied (driver : Driver C) (input : Input C)
    (result : Driver C × Except (Error C) (Option (StateMachine.Output C))) : Prop where
  grows : Grows driver result.1
  settled : Settled result.1
  decided : ∀ round proposal, result.2 = .ok (some (.decision round proposal)) →
    Decided result.1 input proposal

theorem Applied.of_grows {driver driver' : Driver C} {input : Input C}
    {result : Driver C × Except (Error C) (Option (StateMachine.Output C))}
    (applied : Applied driver' input result) (grows : Grows driver driver') :
    Applied driver input result :=
  { applied with grows := grows.trans applied.grows }

theorem Settled.okNone {driver : Driver C} (settled : Settled driver) (input : Input C) :
    Applied driver input (driver, .ok none) :=
  ⟨Grows.refl driver, settled, fun _ _ quiet => nomatch quiet⟩

theorem Settled.failed {driver : Driver C} (settled : Settled driver) (input : Input C)
    (error : Error C) : Applied driver input (driver, .error error) :=
  ⟨Grows.refl driver, settled, fun _ _ failed => nomatch failed⟩

/-- A call into the state machine on a backed input: the keepers and the
certificates are untouched, the pending inputs a change of step makes due are
backed, and a decision is the state machine's commit of that input. -/
theorem Settled.applyInput {driver : Driver C} (settled : Settled driver) {input : Input C}
    (inputRound : Round) {roundInput : StateMachine.Input C}
    (backed : Backs driver input roundInput) :
    Applied driver input (driver.applyInput inputRound roundInput) := by
  cases found : ({ driver with roundState := .default } : Driver C).getProposer with
  | error error =>
      rw [applyInput_of_getProposer_error driver inputRound roundInput found]
      exact ⟨⟨fun _ _ => id, fun _ _ => id, fun _ _ => id⟩, ⟨settled.roundsMatch, settled.pending⟩,
        fun _ _ failed => nomatch failed⟩
  | ok proposer =>
      rw [applyInput_of_getProposer_ok driver inputRound roundInput found, enterRoundState_eq]
      have decides := StateMachine.apply_decidesOn driver.roundState
        ⟨inputRound, driver.address, proposer.address⟩ roundInput
      generalize StateMachine.apply driver.roundState ⟨inputRound, driver.address, proposer.address⟩
        roundInput = transition at decides ⊢
      refine ⟨⟨fun _ _ => id, fun _ _ => id, fun _ _ => id⟩, ⟨settled.roundsMatch, ?_⟩, ?_⟩
      · dsimp only
        split
        · -- the inputs are multiplexed from the new round state, over the same records
          apply backs_multiplexStepChange
          exact settled.roundsMatch
        · exact settled.pending
      · intro round proposal emitted
        obtain ⟨same, decision, committed⟩ :=
          decides round proposal (Except.ok.inj emitted)
        obtain ⟨vouched, certified⟩ := backed proposal same
        exact { vouched, certified, decided := decision, committed,
                proposed := ⟨proposer, getProposer_ok_of_same found rfl rfl⟩ }

/-- The second driver has the first one's keepers, commit certificates and
pending inputs. -/
structure KeepsRecords (driver driver' : Driver C) : Prop where
  proposalKeeper : driver'.proposalKeeper = driver.proposalKeeper
  commitCertificates : driver'.commitCertificates = driver.commitCertificates
  voteKeeper : driver'.voteKeeper = driver.voteKeeper
  pendingInputs : driver'.pendingInputs = driver.pendingInputs

theorem KeepsRecords.grows {driver driver' : Driver C} (keeps : KeepsRecords driver driver') :
    Grows driver driver' := by
  obtain ⟨proposals, certificates, votes, -⟩ := keeps
  refine ⟨fun round entry member => ?_, fun round valueId found => ?_, fun round valueId met => ?_⟩
  · unfold proposalsAndValiditiesForRound
    rw [proposals]
    exact member
  · unfold commitCertificate
    rw [certificates]
    exact found
  · rw [votes]
    exact met

theorem Settled.keeps {driver driver' : Driver C} (settled : Settled driver)
    (keeps : KeepsRecords driver driver') : Settled driver' := by
  refine ⟨keeps.proposalKeeper ▸ settled.roundsMatch, fun entry member input => ?_⟩
  rw [keeps.pendingInputs] at member
  exact (settled.pending entry member input).grow keeps.grows

theorem keepsRecords_addPolkaCertificate (driver : Driver C) (certificate : PolkaCertificate C) :
    KeepsRecords driver (driver.addPolkaCertificate certificate) := by
  obtain ⟨polkaCertificates, added⟩ := addPolkaCertificate_eq driver certificate
  rw [added]
  exact ⟨rfl, rfl, rfl, rfl⟩

theorem keepsRecords_storeThresholdCertificate (driver : Driver C)
    (output : Votes.Output C.ValueId) (voteRound thisRound : Round) :
    KeepsRecords driver (driver.storeThresholdCertificate output voteRound thisRound) := by
  obtain ⟨polkaCertificates, roundCertificate, stored⟩ :=
    storeThresholdCertificate_eq driver output voteRound thisRound
  rw [stored]
  exact ⟨rfl, rfl, rfl, rfl⟩

/-- A commit certificate decides only a proposal stored as valid, and certifies it. -/
theorem backs_storeAndMultiplexCommitCertificate {driver : Driver C}
    (matched : driver.proposalKeeper.RoundsMatch) (certificate : CommitCertificate C)
    (input : Input C) {roundInput : StateMachine.Input C}
    (multiplexed : (driver.storeAndMultiplexCommitCertificate certificate).2 = some roundInput) :
    Backs (driver.storeAndMultiplexCommitCertificate certificate).1 input roundInput := by
  intro proposal decides
  rw [storeAndMultiplexCommitCertificate_fst]
  unfold storeAndMultiplexCommitCertificate at multiplexed
  dsimp only at multiplexed
  split at multiplexed
  · next signedProposal validity found =>
      cases validity with
      | valid =>
          simp only [Validity.isValid, if_true, Option.some.injEq] at multiplexed
          subst multiplexed
          cases decides
          obtain ⟨member, identified⟩ :=
            Proposals.ProposalKeeper.mem_of_getProposalAndValidityForRoundAndValue found
          have atRound : signedProposal.message.round = certificate.round := matched _ _ member
          refine ⟨⟨signedProposal, .valid, rfl, atRound ▸ member, Or.inl rfl⟩, Or.inl ?_⟩
          rw [atRound, identified]
          simp [commitCertificate, List.find?_append]
      | invalid => simp [Validity.isValid] at multiplexed
  · cases multiplexed

theorem backs_storeAndMultiplexPolkaCertificate (driver : Driver C)
    (certificate : PolkaCertificate C) (input : Input C) {entry : Round × StateMachine.Input C}
    (multiplexed : (driver.storeAndMultiplexPolkaCertificate certificate).2 = some entry) :
    Backs (driver.storeAndMultiplexPolkaCertificate certificate).1 input entry.2 := by
  apply backs_of_not_decides
  unfold storeAndMultiplexPolkaCertificate at multiplexed
  dsimp only at multiplexed
  split at multiplexed
  · cases multiplexed
    exact fun _ => nofun
  · split_ifs at multiplexed <;> cases multiplexed <;> exact fun _ => nofun

theorem Settled.applyCommitCertificate {driver : Driver C} (settled : Settled driver)
    (certificate : CommitCertificate C) :
    Applied driver (.commitCertificate certificate) (driver.applyCommitCertificate certificate) := by
  unfold Driver.applyCommitCertificate
  split
  · exact settled.failed _ _
  · have grows : Grows driver (driver.storeAndMultiplexCommitCertificate certificate).1 := by
      rw [storeAndMultiplexCommitCertificate_fst]
      refine ⟨fun _ _ => id, fun round valueId found => ?_, fun _ _ => id⟩
      simp only [commitCertificate, List.find?_append, Option.isSome_or] at found ⊢
      rw [found, Bool.true_or]
    have stored : Settled (driver.storeAndMultiplexCommitCertificate certificate).1 := by
      refine ⟨?_, fun entry member input => ?_⟩
      · rw [storeAndMultiplexCommitCertificate_fst]
        exact settled.roundsMatch
      · rw [storeAndMultiplexCommitCertificate_fst] at member
        exact (settled.pending entry member input).grow grows
    have backed : ∀ roundInput, (driver.storeAndMultiplexCommitCertificate certificate).2 =
        some roundInput → Backs (driver.storeAndMultiplexCommitCertificate certificate).1
          (.commitCertificate certificate) roundInput :=
      fun _ multiplexed => backs_storeAndMultiplexCommitCertificate settled.roundsMatch certificate
        (.commitCertificate certificate) multiplexed
    generalize driver.storeAndMultiplexCommitCertificate certificate = result at grows stored backed ⊢
    obtain ⟨updated, roundInput⟩ := result
    cases roundInput with
    | none => exact (stored.okNone _).of_grows grows
    | some roundInput => exact (stored.applyInput _ (backed roundInput rfl)).of_grows grows

theorem Settled.applyPolkaCertificate {driver : Driver C} (settled : Settled driver)
    (certificate : PolkaCertificate C) :
    Applied driver (.polkaCertificate certificate) (driver.applyPolkaCertificate certificate) := by
  unfold Driver.applyPolkaCertificate
  split
  · exact settled.failed _ _
  · have keeps : KeepsRecords driver (driver.storeAndMultiplexPolkaCertificate certificate).1 := by
      rw [storeAndMultiplexPolkaCertificate_fst]
      exact keepsRecords_addPolkaCertificate driver certificate
    have backed : ∀ entry, (driver.storeAndMultiplexPolkaCertificate certificate).2 = some entry →
        Backs (driver.storeAndMultiplexPolkaCertificate certificate).1
          (.polkaCertificate certificate) entry.2 :=
      fun _ multiplexed => backs_storeAndMultiplexPolkaCertificate driver certificate
        (.polkaCertificate certificate) multiplexed
    generalize driver.storeAndMultiplexPolkaCertificate certificate = result at keeps backed ⊢
    obtain ⟨updated, entry⟩ := result
    cases entry with
    | none => exact ((settled.keeps keeps).okNone _).of_grows keeps.grows
    | some entry => exact ((settled.keeps keeps).applyInput _ (backed entry rfl)).of_grows keeps.grows

theorem Settled.applyProposal {driver : Driver C} (settled : Settled driver)
    (signedProposal : SignedProposal C) (validity : Validity) :
    Applied driver (.proposal signedProposal validity)
      (driver.applyProposal signedProposal validity) := by
  unfold Driver.applyProposal
  split
  · exact settled.failed _ _
  · let stored : Driver C := { driver with
      proposalKeeper := driver.proposalKeeper.storeProposal signedProposal validity }
    have grows : Grows driver stored :=
      ⟨fun _ _ member => Proposals.ProposalKeeper.mem_storeProposal_of_mem signedProposal validity
        member, fun _ _ => id, fun _ _ => id⟩
    have storedSettled : Settled stored :=
      ⟨settled.roundsMatch.storeProposal signedProposal validity,
        fun entry member input => (settled.pending entry member input).grow grows⟩
    -- a decision on the proposal itself is vouched for by this input
    have backed : ∀ roundInput, stored.multiplexProposal signedProposal.message validity =
        some roundInput → Backs stored (.proposal signedProposal validity) roundInput := by
      intro roundInput multiplexed proposal decides
      rw [decides] at multiplexed
      obtain ⟨rfl, rfl, certified⟩ := multiplexProposal_precommitValue multiplexed
      obtain ⟨kept, member⟩ :=
        Proposals.ProposalKeeper.exists_mem_storeProposal driver.proposalKeeper signedProposal .valid
      exact ⟨⟨signedProposal, kept, rfl, member, Or.inr rfl⟩, certified⟩
    have stores : driver.storeAndMultiplexProposal signedProposal validity =
        (stored, stored.multiplexProposal signedProposal.message validity) := rfl
    rw [stores]
    cases multiplexed : stored.multiplexProposal signedProposal.message validity with
    | none => exact (storedSettled.okNone _).of_grows grows
    | some roundInput =>
        exact (storedSettled.applyInput _ (backed roundInput multiplexed)).of_grows grows

theorem Settled.applyVote {driver : Driver C} (settled : Settled driver) (vote : SignedVote C) :
    Applied driver (.vote vote) (driver.applyVote vote) := by
  unfold Driver.applyVote
  split
  · exact settled.failed _ _
  · split
    · exact settled.failed _ _
    · have counted : ∀ round valueId,
          driver.voteKeeper.isThresholdMet round .precommit (.value valueId) →
            (driver.voteKeeper.applyVote vote driver.round).1.isThresholdMet round .precommit
              (.value valueId) :=
        fun _ _ met => Votes.VoteKeeper.isThresholdMet_applyVote vote driver.round met
      have quorum : ∀ valueId,
          (driver.voteKeeper.applyVote vote driver.round).2 = some (.precommitValue valueId) →
            (driver.voteKeeper.applyVote vote driver.round).1.isThresholdMet vote.message.round
              .precommit (.value valueId) :=
        fun _ emitted => Votes.VoteKeeper.applyVote_precommitValue emitted
      dsimp only
      generalize driver.voteKeeper.applyVote vote driver.round = applied at counted quorum ⊢
      obtain ⟨voteKeeper, output⟩ := applied
      have grows : Grows driver { driver with voteKeeper } := ⟨fun _ _ => id, fun _ _ => id, counted⟩
      have recorded : Settled { driver with voteKeeper } :=
        ⟨settled.roundsMatch, fun entry member input => (settled.pending entry member input).grow grows⟩
      cases output with
      | none => exact (recorded.okNone _).of_grows grows
      | some output =>
          have keeps := keepsRecords_storeThresholdCertificate { driver with voteKeeper } output
            vote.message.round driver.round
          have precommits : ∀ valueId, output = .precommitValue valueId →
              (({ driver with voteKeeper } : Driver C).storeThresholdCertificate output
                vote.message.round driver.round).voteKeeper.isThresholdMet vote.message.round
                .precommit (.value valueId) := by
            intro valueId same
            rw [keeps.voteKeeper]
            exact quorum valueId (by rw [same])
          have backed := backs_multiplexVoteThreshold (recorded.keeps keeps).roundsMatch
            (.vote vote) precommits
          dsimp only
          split
          · exact ((recorded.keeps keeps).okNone _).of_grows (grows.trans keeps.grows)
          · exact ((recorded.keeps keeps).applyInput _ backed).of_grows (grows.trans keeps.grows)

theorem Settled.applyTimeout {driver : Driver C} (settled : Settled driver) (timeout : Timeout) :
    Applied driver (.timeoutElapsed timeout) (driver.applyTimeout timeout) := by
  unfold Driver.applyTimeout
  cases timeout.kind with
  | propose => exact settled.applyInput _ (backs_of_not_decides fun _ => by nofun)
  | prevote => exact settled.applyInput _ (backs_of_not_decides fun _ => by nofun)
  | precommit => exact settled.applyInput _ (backs_of_not_decides fun _ => by nofun)
  | rebroadcast => exact settled.okNone _

/-- One call of `apply`, by cases on the input. -/
theorem Settled.apply {driver : Driver C} (settled : Settled driver) (input : Input C) :
    Applied driver input (driver.apply input) := by
  cases input with
  | newRound height round proposer =>
      let entered : Driver C := { driver with
        roundState := if driver.height = height then driver.roundState.withRound round
          else .new height round,
        proposer := some proposer }
      have settledEntered : Settled entered := ⟨settled.roundsMatch, settled.pending⟩
      exact (settledEntered.applyInput round (backs_of_not_decides fun _ => by nofun)).of_grows
        ⟨fun _ _ => id, fun _ _ => id, fun _ _ => id⟩
  | proposeValue round value =>
      exact settled.applyInput round (backs_of_not_decides fun _ => by nofun)
  | proposal signedProposal validity => exact settled.applyProposal signedProposal validity
  | vote vote => exact settled.applyVote vote
  | commitCertificate certificate => exact settled.applyCommitCertificate certificate
  | polkaCertificate certificate => exact settled.applyPolkaCertificate certificate
  | timeoutElapsed timeout => exact settled.applyTimeout timeout

theorem grows_liftOutput (driver : Driver C) (output : StateMachine.Output C) :
    Grows driver (driver.liftOutput output).1 := by
  obtain ⟨lastPrevote, lastPrecommit, lifted⟩ := liftOutput_fst driver output
  rw [lifted]
  exact ⟨fun _ _ => id, fun _ _ => id, fun _ _ => id⟩

theorem eq_decision_of_mem_liftOutput {driver : Driver C} {output : StateMachine.Output C}
    {round : Round} {proposal : Proposal C}
    (emitted : Output.decide round proposal ∈ (driver.liftOutput output).2) :
    output = .decision round proposal := by
  cases output
  case vote vote =>
    rcases liftVoteOutput_cases driver vote with dropped | ⟨-, -, lifted⟩
    · simp [liftOutput, dropped] at emitted
    · simp [liftOutput, lifted] at emitted
  case decision decisionRound decided =>
    simp only [liftOutput, List.mem_singleton, Output.decide.injEq] at emitted
    rw [emitted.1, emitted.2]
  all_goals simp [liftOutput] at emitted

/-- A driver part way through `process`: the invariant holds, and a decision
among the outputs so far is decided in the driver. -/
structure Draining (driver : Driver C) (input : Input C) (outputs : List (Output C)) : Prop where
  settled : Settled driver
  decided : ∀ round proposal, Output.decide round proposal ∈ outputs →
    Decided driver input proposal

/-- What a call of `process` leaves: the records grown, the invariant kept, and
each decision it outputs decided in the driver it returns. -/
structure Processed (driver : Driver C) (input : Input C)
    (result : Driver C × Except (Error C) (List (Output C))) : Prop where
  grows : Grows driver result.1
  settled : Settled result.1
  decided : ∀ outputs, result.2 = .ok outputs → ∀ round proposal,
    Output.decide round proposal ∈ outputs → Decided result.1 input proposal

theorem Processed.of_grows {driver driver' : Driver C} {input : Input C}
    {result : Driver C × Except (Error C) (List (Output C))}
    (processed : Processed driver' input result) (grows : Grows driver driver') :
    Processed driver input result :=
  { processed with grows := grows.trans processed.grows }

theorem Draining.done {driver : Driver C} {input : Input C} {outputs : List (Output C)}
    (draining : Draining driver input outputs) : Processed driver input (driver, .ok outputs) :=
  ⟨Grows.refl driver, draining.settled, fun _ done => by
    cases done
    exact draining.decided⟩

theorem Settled.processFailed {driver : Driver C} (settled : Settled driver) (input : Input C)
    (error : Error C) : Processed driver input (driver, .error error) :=
  ⟨Grows.refl driver, settled, fun _ failed => nomatch failed⟩

/-- Lifting the output of a call keeps the invariant, and a decision among the
lifted outputs is the call's own. -/
theorem Applied.liftOutput {driver updated : Driver C} {input : Input C}
    {output : StateMachine.Output C} {outputs : List (Output C)}
    (applied : Applied driver input (updated, .ok (some output)))
    (before : ∀ round proposal, Output.decide round proposal ∈ outputs →
      Decided updated input proposal) :
    Draining (updated.liftOutput output).1 input (outputs ++ (updated.liftOutput output).2) := by
  obtain ⟨lastPrevote, lastPrecommit, lifted⟩ := liftOutput_fst updated output
  refine ⟨?_, fun round proposal member => ?_⟩
  · rw [lifted]
    exact ⟨applied.settled.roundsMatch, applied.settled.pending⟩
  · rw [lifted]
    apply Decided.withLastVotes
    rcases List.mem_append.mp member with earlier | emitted
    · exact before round proposal earlier
    · exact applied.decided round proposal (by rw [eq_decision_of_mem_liftOutput emitted])

/-- A pass of the pending-input loop, by induction on the batch: each input is
backed, and after a decision the driver is left as it is. -/
theorem Draining.applyPendingBatch {input : Input C} (batch : List (Round × StateMachine.Input C)) :
    ∀ {driver : Driver C} {outputs : List (Output C)}, Draining driver input outputs →
      (∀ entry ∈ batch, Backs driver input entry.2) →
      Processed driver input (driver.applyPendingBatch outputs batch) := by
  induction batch with
  | nil =>
      intro driver outputs draining _
      exact draining.done
  | cons entry rest ih =>
      intro driver outputs draining backed
      obtain ⟨inputRound, roundInput⟩ := entry
      have applied := draining.settled.applyInput inputRound (backed _ List.mem_cons_self)
      have still : ∀ round proposal, Output.decide round proposal ∈ outputs →
          driver.applyInput inputRound roundInput = (driver, .ok none) :=
        fun round proposal member =>
          (draining.decided round proposal member).applyInput inputRound roundInput
      simp only [Driver.applyPendingBatch]
      generalize driver.applyInput inputRound roundInput = result at applied still ⊢
      obtain ⟨updated, outcome⟩ := result
      have restBacked : ∀ entry ∈ rest, Backs updated input entry.2 :=
        fun entry member => (backed entry (List.mem_cons_of_mem _ member)).grow applied.grows
      cases outcome with
      | error error => exact (applied.settled.processFailed _ _).of_grows applied.grows
      | ok output =>
          cases output with
          | none =>
              have kept : Draining updated input outputs := by
                refine ⟨applied.settled, fun round proposal member => ?_⟩
                cases still round proposal member
                exact draining.decided round proposal member
              exact (ih kept restBacked).of_grows applied.grows
          | some output =>
              -- a decision before this output would have left the driver quiet
              have before : ∀ round proposal, Output.decide round proposal ∈ outputs →
                  Decided updated input proposal :=
                fun round proposal member => by cases still round proposal member
              have lifted := applied.liftOutput before
              have grows := grows_liftOutput updated output
              dsimp only
              generalize updated.liftOutput output = liftResult at lifted grows ⊢
              obtain ⟨lifter, more⟩ := liftResult
              exact (ih lifted fun entry member => (restBacked entry member).grow grows).of_grows
                (applied.grows.trans grows)

/-- The pending-input loop, by induction on its passes: each pass takes inputs
the invariant backs. -/
theorem Draining.drainPending {input : Input C} (fuel : Nat) :
    ∀ {driver : Driver C} {outputs : List (Output C)}, Draining driver input outputs →
      Processed driver input (drainPending fuel driver outputs) := by
  induction fuel with
  | zero =>
      intro driver outputs draining
      exact draining.done
  | succ fuel ih =>
      intro driver outputs draining
      simp only [Driver.drainPending]
      split
      · exact draining.done
      · have taken : Draining { driver with pendingInputs := [] } input outputs :=
          ⟨⟨draining.settled.roundsMatch, fun _ member => (List.not_mem_nil member).elim⟩,
            fun round proposal member => (draining.decided round proposal member).withoutPending⟩
        have passed := taken.applyPendingBatch driver.pendingInputs
          (fun entry member => draining.settled.pending entry member input)
        have cleared : Grows driver { driver with pendingInputs := [] } :=
          ⟨fun _ _ => id, fun _ _ => id, fun _ _ => id⟩
        generalize ({ driver with pendingInputs := [] } : Driver C).applyPendingBatch outputs
          driver.pendingInputs = result at passed ⊢
        obtain ⟨updated, outcome⟩ := result
        cases outcome with
        | error error => exact passed.of_grows cleared
        | ok outputs =>
            exact (ih ⟨passed.settled, passed.decided outputs rfl⟩).of_grows
              (cleared.trans passed.grows)

theorem Settled.process {driver : Driver C} (settled : Settled driver) (input : Input C) :
    Processed driver input (driver.process input) := by
  have applied := settled.apply input
  unfold Driver.process
  generalize driver.apply input = result at applied ⊢
  obtain ⟨updated, outcome⟩ := result
  cases outcome with
  | error error => exact (applied.settled.processFailed _ _).of_grows applied.grows
  | ok output =>
      cases output with
      | none =>
          have quiet : Draining updated input [] := ⟨applied.settled, fun _ _ member => (List.not_mem_nil member).elim⟩
          exact quiet.done.of_grows applied.grows
      | some output =>
          have nothingBefore : ∀ round proposal, Output.decide round proposal ∈ ([] : List (Output C)) →
              Decided updated input proposal :=
            fun _ _ member => (List.not_mem_nil member).elim
          have lifted := applied.liftOutput nothingBefore
          rw [List.nil_append] at lifted
          have grows := grows_liftOutput updated output
          dsimp only
          generalize updated.liftOutput output = liftResult at lifted grows ⊢
          obtain ⟨lifter, outputs⟩ := liftResult
          exact (lifted.drainPending pendingBatches).of_grows (applied.grows.trans grows)

/-- A run, by induction on its inputs. -/
theorem Settled.run (inputs : List (Input C)) :
    ∀ {driver : Driver C}, Settled driver → Settled (driver.run inputs).1 := by
  induction inputs with
  | nil =>
      intro driver settled
      exact settled
  | cons input rest ih =>
      intro driver settled
      have processed := settled.process input
      simp only [Driver.run]
      generalize driver.process input = result at processed ⊢
      obtain ⟨updated, outcome⟩ := result
      exact ih processed.settled

/-- Decision justification, over every run of a driver from its start: a
decision that `process` outputs is on a proposal held at its round, stored as
valid or reported valid by the input that decided it, with a commit
certificate or a quorum of precommits for its value at its round; and it is the
decision of the round state. -/
theorem decide_justified (height : C.Height) (validatorSet : ValidatorSet C)
    (address : C.Address) (thresholdParams : ThresholdParams) (inputs : List (Input C))
    (input : Input C) (outputs : List (Output C)) (round : Round) (proposal : Proposal C)
    (processed : (((Driver.new height validatorSet address thresholdParams).run inputs).1.process
      input).2 = .ok outputs)
    (decided : Output.decide round proposal ∈ outputs) :
    Justified (((Driver.new height validatorSet address thresholdParams).run inputs).1.process
      input).1 input proposal := by
  have settled := (settled_new height validatorSet address thresholdParams).run inputs
  exact ((settled.process input).decided outputs processed round proposal decided).toJustified

theorem decide_justified_on_redelivered_proposal :
    (((Driver.new 0 fourValidators 0 .default : Driver testContext).run
        [.newRound 0 (.some 0) 1, .proposal ⟨⟨0, .some 0, 5, .nil, 1⟩, 1⟩ .invalid,
          .vote ⟨Vote.newPrecommit 0 (.some 0) (.val 5) 1, 1⟩,
          .vote ⟨Vote.newPrecommit 0 (.some 0) (.val 5) 2, 2⟩,
          .vote ⟨Vote.newPrecommit 0 (.some 0) (.val 5) 3, 3⟩]).1.process
        (.proposal ⟨⟨0, .some 0, 5, .nil, 1⟩, 1⟩ .valid)).2 =
        .ok [.decide (.some 0) ⟨0, .some 0, 5, .nil, 1⟩] ∧
      (Output.decide (.some 0) ⟨0, .some 0, 5, .nil, 1⟩ : Output testContext) ∈
        [.decide (.some 0) ⟨0, .some 0, 5, .nil, 1⟩] ∧
      Justified (((Driver.new 0 fourValidators 0 .default : Driver testContext).run
        [.newRound 0 (.some 0) 1, .proposal ⟨⟨0, .some 0, 5, .nil, 1⟩, 1⟩ .invalid,
          .vote ⟨Vote.newPrecommit 0 (.some 0) (.val 5) 1, 1⟩,
          .vote ⟨Vote.newPrecommit 0 (.some 0) (.val 5) 2, 2⟩,
          .vote ⟨Vote.newPrecommit 0 (.some 0) (.val 5) 3, 3⟩]).1.process
        (.proposal ⟨⟨0, .some 0, 5, .nil, 1⟩, 1⟩ .valid)).1
        (.proposal ⟨⟨0, .some 0, 5, .nil, 1⟩, 1⟩ .valid) ⟨0, .some 0, 5, .nil, 1⟩ := by
  have processed : (((Driver.new 0 fourValidators 0 .default : Driver testContext).run
      [.newRound 0 (.some 0) 1, .proposal ⟨⟨0, .some 0, 5, .nil, 1⟩, 1⟩ .invalid,
        .vote ⟨Vote.newPrecommit 0 (.some 0) (.val 5) 1, 1⟩,
        .vote ⟨Vote.newPrecommit 0 (.some 0) (.val 5) 2, 2⟩,
        .vote ⟨Vote.newPrecommit 0 (.some 0) (.val 5) 3, 3⟩]).1.process
      (.proposal ⟨⟨0, .some 0, 5, .nil, 1⟩, 1⟩ .valid)).2 =
      .ok [.decide (.some 0) ⟨0, .some 0, 5, .nil, 1⟩] := by
    decide
  have decided : (Output.decide (.some 0) ⟨0, .some 0, 5, .nil, 1⟩ : Output testContext) ∈
      [.decide (.some 0) ⟨0, .some 0, 5, .nil, 1⟩] :=
    List.mem_singleton_self _
  exact ⟨processed, decided, decide_justified (C := testContext) 0 fourValidators 0 .default _ _ _ _ _ processed
    decided⟩

/-- A proposal first delivered as invalid and then as valid, after a quorum of
precommits for its value: the driver decides it, while its proposal keeper
holds it with the validity it was first stored with. -/
theorem decision_on_proposal_stored_invalid :
    let driver := ((Driver.new 0 fourValidators 0 .default : Driver testContext).run
      [.newRound 0 (.some 0) 1, .proposal ⟨⟨0, .some 0, 5, .nil, 1⟩, 1⟩ .invalid,
        .vote ⟨Vote.newPrecommit 0 (.some 0) (.val 5) 1, 1⟩,
        .vote ⟨Vote.newPrecommit 0 (.some 0) (.val 5) 2, 2⟩,
        .vote ⟨Vote.newPrecommit 0 (.some 0) (.val 5) 3, 3⟩]).1
    (driver.process (.proposal ⟨⟨0, .some 0, 5, .nil, 1⟩, 1⟩ .valid)).2 =
        .ok [.decide (.some 0) ⟨0, .some 0, 5, .nil, 1⟩] ∧
      (driver.process (.proposal ⟨⟨0, .some 0, 5, .nil, 1⟩, 1⟩ .valid)).1.proposalsAndValiditiesForRound
        (.some 0) = [(⟨⟨0, .some 0, 5, .nil, 1⟩, 1⟩, .invalid)] := by
  decide

end Driver

end Malachite
