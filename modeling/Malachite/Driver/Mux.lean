import Malachite.Driver.Basic

namespace Malachite

/-! The multiplexer (`core-driver/src/mux.rs`): from a proposal, a threshold
of the vote keeper, a certificate or a change of step, the input to feed the
round state machine.  The multiplexing functions only read the driver; those
that store a proposal or a certificate first return the updated driver. -/

variable {C : Context}

namespace Driver

def hasPolkaValue (voteKeeper : Votes.VoteKeeper C) (round : Round) (proposal : Proposal C) :
    Bool :=
  voteKeeper.isThresholdMet round .prevote (.value (C.id proposal.value))

def hasPolkaNil (voteKeeper : Votes.VoteKeeper C) (round : Round) : Bool :=
  voteKeeper.isThresholdMet round .prevote .nil

def hasPolkaAny (voteKeeper : Votes.VoteKeeper C) (round : Round) : Bool :=
  voteKeeper.isThresholdMet round .prevote .any

def hasPrecommitAny (voteKeeper : Votes.VoteKeeper C) (round : Round) : Bool :=
  voteKeeper.isThresholdMet round .precommit .any

def findNonValueThreshold (voteKeeper : Votes.VoteKeeper C) (round : Round) :
    Option (Votes.Output C.ValueId) :=
  if hasPrecommitAny voteKeeper round then some .precommitAny
  else if hasPolkaNil voteKeeper round then some .polkaNil
  else if hasPolkaAny voteKeeper round then some .polkaAny
  else none

/-- The input a proposal stands for, given the step, the certificates and the
thresholds reached.  The polka certificates are looked up by round only. -/
def multiplexProposal (driver : Driver C) (proposal : Proposal C) (validity : Validity) :
    Option (StateMachine.Input C) :=
  if driver.roundState.round = .nil then none
  else
    let polkaCertificateForPrevious := driver.polkaCertificates.find? fun certificate =>
      certificate.round = proposal.polRound
    let polkaPrevious := proposal.polRound.isDefined &&
      decide (proposal.polRound < driver.roundState.round) &&
      (polkaCertificateForPrevious.isSome ||
        driver.voteKeeper.isThresholdMet proposal.polRound .prevote (.value (C.id proposal.value)))
    if !validity.isValid then
      if driver.roundState.step = .propose then
        if proposal.polRound.isNil then some .invalidProposal
        else if polkaPrevious then some (.invalidProposalAndPolkaPrevious proposal)
        else none
      else none
    else if driver.roundState.decision.isNone &&
        (driver.commitCertificate proposal.round (C.id proposal.value)).isSome then
      some (.proposalAndPrecommitValue proposal)
    else if driver.voteKeeper.isThresholdMet proposal.round .precommit
        (.value (C.id proposal.value)) && driver.roundState.decision.isNone then
      some (.proposalAndPrecommitValue proposal)
    else if driver.roundState.round ≠ proposal.round then none
    else
      let polkaCertificateForCurrent := driver.polkaCertificates.find? fun certificate =>
        certificate.round = proposal.round
      let polkaForCurrent := polkaCertificateForCurrent.isSome ||
        driver.voteKeeper.isThresholdMet proposal.round .prevote (.value (C.id proposal.value))
      let polkaCurrent := polkaForCurrent && decide (driver.roundState.step ≥ .prevote)
      if polkaCurrent then some (.proposalAndPolkaCurrent proposal)
      else if driver.roundState.step = .propose && polkaPrevious then
        some (.proposalAndPolkaPrevious proposal)
      else if proposal.polRound.isNil then some (.proposal proposal)
      else none

def storeAndMultiplexProposal (driver : Driver C) (signedProposal : SignedProposal C)
    (validity : Validity) : Driver C × Option (StateMachine.Input C) :=
  let driver := { driver with
    proposalKeeper := driver.proposalKeeper.storeProposal signedProposal validity }
  (driver, driver.multiplexProposal signedProposal.message validity)

def storeAndMultiplexCommitCertificate (driver : Driver C) (certificate : CommitCertificate C) :
    Driver C × Option (StateMachine.Input C) :=
  let driver := { driver with commitCertificates := driver.commitCertificates ++ [certificate] }
  match driver.proposalAndValidityForRoundAndValue certificate.round certificate.valueId with
  | some (signedProposal, validity) =>
      if validity.isValid then (driver, some (.proposalAndPrecommitValue signedProposal.message))
      else (driver, none)
  | none => (driver, none)

/-- Store a polka certificate unless one for the same round and value is present. -/
def addPolkaCertificate (driver : Driver C) (certificate : PolkaCertificate C) : Driver C :=
  let present := driver.polkaCertificates.any fun existing =>
    decide (existing.round = certificate.round) && decide (existing.valueId = certificate.valueId)
  if present then driver
  else { driver with polkaCertificates := driver.polkaCertificates ++ [certificate] }

def storeAndMultiplexPolkaCertificate (driver : Driver C) (certificate : PolkaCertificate C) :
    Driver C × Option (Round × StateMachine.Input C) :=
  let driver := driver.addPolkaCertificate certificate
  match driver.proposalAndValidityForRoundAndValue driver.round certificate.valueId with
  | none => (driver, some (certificate.round, .polkaAny))
  | some (signedProposal, validity) =>
      let proposal := signedProposal.message
      if certificate.valueId = C.id proposal.value then
        if validity.isValid then
          if proposal.polRound = certificate.round then
            (driver, some (proposal.round, .proposalAndPolkaPrevious proposal))
          else if proposal.round = certificate.round then
            (driver, some (proposal.round, .proposalAndPolkaCurrent proposal))
          else (driver, none)
        else (driver, none)
      else (driver, some (certificate.round, .polkaAny))

theorem storeAndMultiplexCommitCertificate_fst (driver : Driver C)
    (certificate : CommitCertificate C) :
    (driver.storeAndMultiplexCommitCertificate certificate).1 =
      { driver with commitCertificates := driver.commitCertificates ++ [certificate] } := by
  unfold storeAndMultiplexCommitCertificate
  dsimp only
  split
  · split <;> rfl
  · rfl

theorem storeAndMultiplexPolkaCertificate_fst (driver : Driver C)
    (certificate : PolkaCertificate C) :
    (driver.storeAndMultiplexPolkaCertificate certificate).1 =
      driver.addPolkaCertificate certificate := by
  unfold storeAndMultiplexPolkaCertificate
  dsimp only
  split
  · rfl
  · split
    · split
      · split
        · rfl
        · split <;> rfl
      · rfl
    · rfl

theorem addPolkaCertificate_eq (driver : Driver C) (certificate : PolkaCertificate C) :
    ∃ polkaCertificates, driver.addPolkaCertificate certificate = { driver with polkaCertificates } := by
  unfold addPolkaCertificate
  dsimp only
  split
  · exact ⟨_, rfl⟩
  · exact ⟨_, rfl⟩

/-- The input for a new threshold of the vote keeper at `thresholdRound`, and
the round it is for. -/
def multiplexVoteThreshold (driver : Driver C) (newThreshold : Votes.Output C.ValueId)
    (thresholdRound : Round) : Round × StateMachine.Input C :=
  match newThreshold with
  | .polkaAny => (thresholdRound, .polkaAny)
  | .polkaNil => (thresholdRound, .polkaNil)
  | .precommitAny => (thresholdRound, .precommitAny)
  | .skipRound round => (thresholdRound, .skipRound round)
  | .precommitValue valueId =>
      match driver.proposalAndValidityForRoundAndValue thresholdRound valueId with
      | some (signedProposal, validity) =>
          if validity.isValid then
            (thresholdRound, .proposalAndPrecommitValue signedProposal.message)
          else (thresholdRound, .precommitAny)
      | none => (thresholdRound, .precommitAny)
  | .polkaValue valueId =>
      match driver.proposalAndValidityForRoundAndValue driver.round valueId with
      | some (signedProposal, validity) =>
          let proposal := signedProposal.message
          let polRoundMatch := decide (proposal.polRound = thresholdRound)
          let roundMatch := decide (proposal.round = thresholdRound)
          match proposal.polRound with
          | .some _ =>
              if !validity.isValid && polRoundMatch then
                (proposal.round, .invalidProposalAndPolkaPrevious proposal)
              else if validity.isValid && polRoundMatch then
                (proposal.round, .proposalAndPolkaPrevious proposal)
              else if roundMatch && validity.isValid then
                (thresholdRound, .proposalAndPolkaCurrent proposal)
              else (thresholdRound, .polkaAny)
          | .nil =>
              if roundMatch && validity.isValid then
                (thresholdRound, .proposalAndPolkaCurrent proposal)
              else (thresholdRound, .polkaAny)
      | none => (thresholdRound, .polkaAny)

/-- The inputs that become due when the step changes in `round`. -/
def multiplexStepChange (driver : Driver C) (round : Round) : List (Round × StateMachine.Input C) :=
  let fromProposals := (driver.proposalsAndValiditiesForRound round).filterMap fun entry =>
    let proposal := entry.1.message
    match driver.roundState.step with
    | .propose => (driver.multiplexProposal proposal entry.2).map fun input => (driver.round, input)
    | .prevote =>
        if hasPolkaValue driver.voteKeeper round proposal then
          some (driver.multiplexVoteThreshold (.polkaValue (C.id proposal.value)) round)
        else none
    | _ => none
  fromProposals ++ ((findNonValueThreshold driver.voteKeeper round).map fun threshold =>
    driver.multiplexVoteThreshold threshold round).toList

end Driver

end Malachite
