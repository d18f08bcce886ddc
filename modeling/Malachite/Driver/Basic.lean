import Malachite.Driver.ProposalKeeper
import Malachite.Types.Certificate
import Malachite.StateMachine.Apply

namespace Malachite

/-! The driver of one node at one height (`core-driver/src/driver.rs`): its
state, inputs, outputs and errors, and how it lifts the outputs of the round
state machine to its own.  Every method that takes `&mut self` returns the
updated driver. -/

variable {C : Context}

variable (C) in
structure Driver where
  address : C.Address
  thresholdParams : ThresholdParams
  validatorSet : ValidatorSet C
  proposer : Option C.Address
  proposalKeeper : Proposals.ProposalKeeper C
  voteKeeper : Votes.VoteKeeper C
  commitCertificates : List (CommitCertificate C)
  polkaCertificates : List (PolkaCertificate C)
  roundState : StateMachine.State C
  pendingInputs : List (Round × StateMachine.Input C)
  lastPrevote : Option (Vote C)
  lastPrecommit : Option (Vote C)
  roundCertificate : Option (EnterRoundCertificate C)

namespace Driver

variable (C) in
inductive Input where
  | newRound (height : C.Height) (round : Round) (proposer : C.Address)
  | proposeValue (round : Round) (value : C.Value)
  | proposal (proposal : SignedProposal C) (validity : Validity)
  | vote (vote : SignedVote C)
  | commitCertificate (certificate : CommitCertificate C)
  | polkaCertificate (certificate : PolkaCertificate C)
  | timeoutElapsed (timeout : Timeout)

variable (C) in
inductive Output where
  | newRound (height : C.Height) (round : Round)
  | propose (proposal : Proposal C)
  | vote (vote : Vote C)
  | decide (round : Round) (proposal : Proposal C)
  | scheduleTimeout (timeout : Timeout)
  | getValue (height : C.Height) (round : Round) (timeout : Timeout)
deriving DecidableEq

variable (C) in
inductive Error where
  | noProposer (height : C.Height) (round : Round)
  | proposerNotFound (address : C.Address)
  | validatorNotFound (address : C.Address)
  | invalidProposalHeight (proposalHeight consensusHeight : C.Height)
  | invalidVoteHeight (voteHeight consensusHeight : C.Height)
  | invalidCertificateHeight (certificateHeight consensusHeight : C.Height)
deriving DecidableEq

def new (height : C.Height) (validatorSet : ValidatorSet C) (address : C.Address)
    (thresholdParams : ThresholdParams) : Driver C :=
  { address, thresholdParams, validatorSet, proposer := none, proposalKeeper := .new,
    voteKeeper := .new validatorSet thresholdParams, commitCertificates := [],
    polkaCertificates := [], roundState := .new height .nil, pendingInputs := [],
    lastPrevote := none, lastPrecommit := none, roundCertificate := none }

/-- Reset for a new height; the proposer and the round certificate are kept. -/
def moveToHeight (driver : Driver C) (height : C.Height) (validatorSet : ValidatorSet C) :
    Driver C :=
  { driver with
    validatorSet, proposalKeeper := .new, voteKeeper := .new validatorSet driver.thresholdParams,
    roundState := .new height .nil, pendingInputs := [], commitCertificates := [],
    polkaCertificates := [], lastPrevote := none, lastPrecommit := none }

def height (driver : Driver C) : C.Height := driver.roundState.height

def round (driver : Driver C) : Round := driver.roundState.round

def getProposer (driver : Driver C) : Except (Error C) (Validator C) :=
  match driver.proposer with
  | some proposer =>
      match driver.validatorSet.getByAddress proposer with
      | some validator => .ok validator
      | none => .error (.proposerNotFound proposer)
  | none => .error (.noProposer driver.height driver.round)

def commitCertificate (driver : Driver C) (round : Round) (valueId : C.ValueId) :
    Option (CommitCertificate C) :=
  driver.commitCertificates.find? fun certificate =>
    certificate.round = round ∧ certificate.valueId = valueId

def proposalAndValidityForRoundAndValue (driver : Driver C) (round : Round)
    (valueId : C.ValueId) : Option (SignedProposal C × Validity) :=
  driver.proposalKeeper.getProposalAndValidityForRoundAndValue round valueId

def proposalsAndValiditiesForRound (driver : Driver C) (round : Round) :
    List (SignedProposal C × Validity) :=
  driver.proposalKeeper.getProposalsAndValiditiesForRound round

/-- Record a vote we cast, when it is for the round we are at. -/
def setLastVoteCast (driver : Driver C) (vote : Vote C) : Driver C :=
  if vote.round = driver.round then
    match vote.voteType with
    | .prevote => { driver with lastPrevote := some vote }
    | .precommit => { driver with lastPrecommit := some vote }
  else driver

/-- A vote may follow our last vote of its type when that one is for a lower
height or round, or is the same vote. -/
def castable (last : Option (Vote C)) (vote : Vote C) : Bool :=
  match last with
  | none => true
  | some previous =>
      decide (previous.height < vote.height) || decide (previous.round < vote.round) ||
        decide (previous = vote)

/-- A precommit for a value must be for the valid value, if there is one. -/
def matchesValid (valid : Option (StateMachine.RoundValue C.Value)) (vote : Vote C) : Bool :=
  match valid with
  | some valid =>
      match vote.value with
      | .val valueId => decide (C.id valid.value = valueId)
      | .nil => true
  | none => true

def liftVoteOutput (driver : Driver C) (vote : Vote C) : Driver C × List (Output C) :=
  if vote.validatorAddress ≠ driver.address then (driver, [])
  else
    let canVote := match vote.voteType with
      | .prevote => castable driver.lastPrevote vote
      | .precommit =>
          castable driver.lastPrecommit vote && matchesValid driver.roundState.valid vote
    if canVote then (driver.setLastVoteCast vote, [.vote vote]) else (driver, [])

def liftOutput (driver : Driver C) : StateMachine.Output C → Driver C × List (Output C)
  | .newRound round => (driver, [.newRound driver.height round])
  | .proposal proposal => (driver, [.propose proposal])
  | .vote vote => driver.liftVoteOutput vote
  | .scheduleTimeout timeout => (driver, [.scheduleTimeout timeout])
  | .getValueAndScheduleTimeout height round timeout =>
      (driver, [.scheduleTimeout timeout, .getValue height round timeout])
  | .decision round proposal => (driver, [.decide round proposal])

end Driver

end Malachite
