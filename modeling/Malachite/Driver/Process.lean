import Malachite.Driver.Mux

namespace Malachite

/-! How the driver processes an input (`Driver::process` and the `apply_*`
methods of `driver.rs`).  Each call returns the updated driver with its result:
as in the source, an error leaves the changes made before it in place.

`process` applies the input and then, while inputs are pending, takes the
whole pending list and applies it in order.  The loop is modelled with a bound
`pendingBatches` on its number of passes: a pass leaves inputs pending only
when the step of the round strictly increased, which bounds the passes by the
four steps after `unstarted`. -/

variable {C : Context}

namespace Driver

def storePolkaCertificate (driver : Driver C) (voteRound : Round) (valueId : C.ValueId) :
    Driver C :=
  match driver.voteKeeper.getPerRound voteRound with
  | none => driver
  | some perRound =>
      let prevotes := perRound.receivedVotes.filter fun vote =>
        decide (vote.message.voteType = .prevote) && decide (vote.message.value = .val valueId)
      let certificate : PolkaCertificate C :=
        { height := driver.height, round := voteRound, valueId,
          polkaSignatures := prevotes.map fun vote =>
            ⟨vote.message.validatorAddress, vote.signature⟩ }
      { driver with polkaCertificates := driver.polkaCertificates ++ [certificate] }

def prunePolkaCertificates (driver : Driver C) (minRound : Round) : Driver C :=
  { driver with
    polkaCertificates := driver.polkaCertificates.filter fun certificate =>
      decide (certificate.round ≥ minRound) }

def pruneVotesAndCertificates (driver : Driver C) (minRound : Round) : Driver C :=
  let driver := driver.prunePolkaCertificates minRound
  { driver with voteKeeper := driver.voteKeeper.pruneVotes minRound }

/-- The source panics when the round has no votes; this cannot happen after a
vote of that round was applied. -/
def storePrecommitAnyRoundCertificate (driver : Driver C) (voteRound : Round) : Driver C :=
  match driver.voteKeeper.getPerRound voteRound with
  | none => driver
  | some perRound =>
      let precommits := perRound.receivedVotes.filter fun vote =>
        vote.message.voteType = .precommit
      { driver with
        roundCertificate := some (EnterRoundCertificate.newFromVotes driver.height
          voteRound.increment voteRound .precommit precommits) }

/-- The first vote of each validator, as kept by a filter over a set of the
addresses seen so far. -/
def firstVotePerAddress : List C.Address → List (SignedVote C) → List (SignedVote C)
  | _, [] => []
  | seen, vote :: rest =>
      if vote.message.validatorAddress ∈ seen then firstVotePerAddress seen rest
      else vote :: firstVotePerAddress (vote.message.validatorAddress :: seen) rest

def storeSkipRoundCertificate (driver : Driver C) (voteRound : Round) : Driver C :=
  match driver.voteKeeper.getPerRound voteRound with
  | none => driver
  | some perRound =>
      let skipVotes := firstVotePerAddress [] perRound.receivedVotes
      { driver with
        roundCertificate := some (EnterRoundCertificate.newFromVotes driver.height voteRound
          voteRound .skip skipVotes) }

/-- Enter the next round state; a change to a started step makes due the
inputs that step calls for. -/
def enterRoundState (driver : Driver C) (inputRound : Round) (previousStep : StateMachine.Step)
    (roundState : StateMachine.State C) : Driver C :=
  let driver := { driver with roundState }
  if previousStep ≠ driver.roundState.step ∧ driver.roundState.step ≠ .unstarted then
    { driver with pendingInputs := driver.multiplexStepChange inputRound }
  else driver

theorem enterRoundState_eq (driver : Driver C) (inputRound : Round)
    (previousStep : StateMachine.Step) (roundState : StateMachine.State C) :
    driver.enterRoundState inputRound previousStep roundState =
      { driver with
        roundState,
        pendingInputs :=
          if previousStep ≠ roundState.step ∧ roundState.step ≠ .unstarted then
            ({ driver with roundState } : Driver C).multiplexStepChange inputRound
          else driver.pendingInputs } := by
  unfold enterRoundState
  by_cases changed : previousStep ≠ roundState.step ∧ roundState.step ≠ .unstarted
  · simp only [if_pos changed]
  · simp only [if_neg changed]

/-- Apply an input to the round state machine.  The round state is taken out
of the driver (`mem::take`) before the proposer is looked up, so a missing
proposer leaves the default round state behind. -/
def applyInput (driver : Driver C) (inputRound : Round) (input : StateMachine.Input C) :
    Driver C × Except (Error C) (Option (StateMachine.Output C)) :=
  let roundState := driver.roundState
  let driver := { driver with roundState := .default }
  match driver.getProposer with
  | .error error => (driver, .error error)
  | .ok proposer =>
      let info : StateMachine.Info C := ⟨inputRound, driver.address, proposer.address⟩
      let transition := StateMachine.apply roundState info input
      (driver.enterRoundState inputRound roundState.step transition.nextState,
        .ok transition.output)

def applyCommitCertificate (driver : Driver C) (certificate : CommitCertificate C) :
    Driver C × Except (Error C) (Option (StateMachine.Output C)) :=
  if driver.height ≠ certificate.height then
    (driver, .error (.invalidCertificateHeight certificate.height driver.height))
  else
    match driver.storeAndMultiplexCommitCertificate certificate with
    | (driver, some roundInput) => driver.applyInput certificate.round roundInput
    | (driver, none) => (driver, .ok none)

def applyPolkaCertificate (driver : Driver C) (certificate : PolkaCertificate C) :
    Driver C × Except (Error C) (Option (StateMachine.Output C)) :=
  if driver.height ≠ certificate.height then
    (driver, .error (.invalidCertificateHeight certificate.height driver.height))
  else
    match driver.storeAndMultiplexPolkaCertificate certificate with
    | (driver, some (inputRound, roundInput)) => driver.applyInput inputRound roundInput
    | (driver, none) => (driver, .ok none)

/-- A new round of our height keeps the locked and valid values. -/
def applyNewRound (driver : Driver C) (height : C.Height) (round : Round) (proposer : C.Address) :
    Driver C × Except (Error C) (Option (StateMachine.Output C)) :=
  let roundState :=
    if driver.height = height then driver.roundState.withRound round else .new height round
  let driver := { driver with roundState, proposer := some proposer }
  driver.applyInput round (.newRound round)

def applyProposeValue (driver : Driver C) (round : Round) (value : C.Value) :
    Driver C × Except (Error C) (Option (StateMachine.Output C)) :=
  driver.applyInput round (.proposeValue value)

def applyProposal (driver : Driver C) (proposal : SignedProposal C) (validity : Validity) :
    Driver C × Except (Error C) (Option (StateMachine.Output C)) :=
  if driver.height ≠ proposal.message.height then
    (driver, .error (.invalidProposalHeight proposal.message.height driver.height))
  else
    match driver.storeAndMultiplexProposal proposal validity with
    | (driver, some roundInput) => driver.applyInput proposal.message.round roundInput
    | (driver, none) => (driver, .ok none)

/-- Store the certificate a new threshold calls for: a polka certificate, or
the certificate to enter the next round (a quorum of precommits of our round)
or a higher one (a skip). -/
def storeThresholdCertificate (driver : Driver C) (output : Votes.Output C.ValueId)
    (voteRound thisRound : Round) : Driver C :=
  match output with
  | .polkaValue valueId => driver.storePolkaCertificate voteRound valueId
  | .precommitAny =>
      if thisRound = voteRound then driver.storePrecommitAnyRoundCertificate voteRound
      else driver
  | .skipRound round => driver.storeSkipRoundCertificate round
  | _ => driver

/-- Storing a threshold's certificate changes only the polka certificates and
the certificate to enter a round. -/
theorem storeThresholdCertificate_eq (driver : Driver C) (output : Votes.Output C.ValueId)
    (voteRound thisRound : Round) :
    ∃ polkaCertificates roundCertificate,
      driver.storeThresholdCertificate output voteRound thisRound =
        { driver with polkaCertificates, roundCertificate } := by
  cases output with
  | polkaValue valueId =>
      simp only [storeThresholdCertificate, storePolkaCertificate]
      split
      · exact ⟨_, _, rfl⟩
      · exact ⟨_, _, rfl⟩
  | precommitAny =>
      simp only [storeThresholdCertificate, storePrecommitAnyRoundCertificate]
      split
      · split
        · exact ⟨_, _, rfl⟩
        · exact ⟨_, _, rfl⟩
      · exact ⟨_, _, rfl⟩
  | skipRound round =>
      simp only [storeThresholdCertificate, storeSkipRoundCertificate]
      split
      · exact ⟨_, _, rfl⟩
      · exact ⟨_, _, rfl⟩
  | polkaAny => exact ⟨_, _, rfl⟩
  | polkaNil => exact ⟨_, _, rfl⟩
  | precommitValue valueId => exact ⟨_, _, rfl⟩

def applyVote (driver : Driver C) (vote : SignedVote C) :
    Driver C × Except (Error C) (Option (StateMachine.Output C)) :=
  if driver.height ≠ vote.message.height then
    (driver, .error (.invalidVoteHeight vote.message.height driver.height))
  else if (driver.validatorSet.getByAddress vote.message.validatorAddress).isNone then
    (driver, .error (.validatorNotFound vote.message.validatorAddress))
  else
    let voteRound := vote.message.round
    let thisRound := driver.round
    let (voteKeeper, output) := driver.voteKeeper.applyVote vote thisRound
    let driver := { driver with voteKeeper }
    match output with
    | none => (driver, .ok none)
    | some output =>
        let driver := driver.storeThresholdCertificate output voteRound thisRound
        let (inputRound, roundInput) := driver.multiplexVoteThreshold output voteRound
        if roundInput = .noInput then (driver, .ok none)
        else driver.applyInput inputRound roundInput

def applyTimeout (driver : Driver C) (timeout : Timeout) :
    Driver C × Except (Error C) (Option (StateMachine.Output C)) :=
  match timeout.kind with
  | .propose => driver.applyInput timeout.round .timeoutPropose
  | .prevote => driver.applyInput timeout.round .timeoutPrevote
  | .precommit => driver.applyInput timeout.round .timeoutPrecommit
  | .rebroadcast => (driver, .ok none)

def apply (driver : Driver C) : Input C →
    Driver C × Except (Error C) (Option (StateMachine.Output C))
  | .commitCertificate certificate => driver.applyCommitCertificate certificate
  | .polkaCertificate certificate => driver.applyPolkaCertificate certificate
  | .newRound height round proposer => driver.applyNewRound height round proposer
  | .proposeValue round value => driver.applyProposeValue round value
  | .proposal proposal validity => driver.applyProposal proposal validity
  | .vote vote => driver.applyVote vote
  | .timeoutElapsed timeout => driver.applyTimeout timeout

/-- One pass of the pending-input loop over a taken batch. -/
def applyPendingBatch (driver : Driver C) (outputs : List (Output C)) :
    List (Round × StateMachine.Input C) → Driver C × Except (Error C) (List (Output C))
  | [] => (driver, .ok outputs)
  | (round, input) :: rest =>
      match driver.applyInput round input with
      | (driver, .error error) => (driver, .error error)
      | (driver, .ok none) => driver.applyPendingBatch outputs rest
      | (driver, .ok (some output)) =>
          let (driver, lifted) := driver.liftOutput output
          driver.applyPendingBatch (outputs ++ lifted) rest

/-- The pending-input loop, for at most `fuel` passes. -/
def drainPending : Nat → Driver C → List (Output C) → Driver C × Except (Error C) (List (Output C))
  | 0, driver, outputs => (driver, .ok outputs)
  | fuel + 1, driver, outputs =>
      if driver.pendingInputs.isEmpty then (driver, .ok outputs)
      else
        let batch := driver.pendingInputs
        match { driver with pendingInputs := [] }.applyPendingBatch outputs batch with
        | (driver, .error error) => (driver, .error error)
        | (driver, .ok outputs) => drainPending fuel driver outputs

/-- The passes the pending-input loop can make. -/
def pendingBatches : Nat := 4

def process (driver : Driver C) (input : Input C) :
    Driver C × Except (Error C) (List (Output C)) :=
  match driver.apply input with
  | (driver, .error error) => (driver, .error error)
  | (driver, .ok none) => (driver, .ok [])
  | (driver, .ok (some roundOutput)) =>
      let (driver, outputs) := driver.liftOutput roundOutput
      drainPending pendingBatches driver outputs

/-- Process inputs one after the other.  The outputs of a call that fails are
lost, as the source returns only the error. -/
def run (driver : Driver C) : List (Input C) → Driver C × List (Output C)
  | [] => (driver, [])
  | input :: rest =>
      let (driver, result) := driver.process input
      let emitted := match result with
        | .ok outputs => outputs
        | .error _ => []
      let (driver, later) := driver.run rest
      (driver, emitted ++ later)

end Driver

end Malachite
