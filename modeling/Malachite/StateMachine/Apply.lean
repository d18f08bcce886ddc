import Malachite.StateMachine.Basic

namespace Malachite.StateMachine

/-! The transition function of the round state machine, `state_machine.rs`.

Each helper is the source function of the same name; `apply` is its `match`
on `(state.step, input)`.  A failed guard in the source falls through to the
later arms; for every step-specific arm the later arms that could match the
same input are the catch-all, so a failed guard is an invalid transition. -/

variable {C : Context}

/-- A proof-of-lock round is usable when it is defined and below our round. -/
def isValidPolRound (state : State C) (polRound : Round) : Bool :=
  polRound.isDefined && decide (polRound < state.round)

/-- We are the proposer: re-propose the valid value, or ask for a value (L13-L16, L19). -/
def proposeValidOrGetValue (state : State C) (address : C.Address) : Transition C :=
  match state.valid with
  | some roundValue =>
      let proposal : Proposal C :=
        { height := state.height, round := state.round, value := roundValue.value,
          polRound := roundValue.round, validatorAddress := address }
      (Transition.toState (state.withStep .propose)).withOutput (.proposal proposal)
  | none =>
      let output := Output.getValueAndScheduleTimeout state.height state.round
        (Timeout.propose state.round)
      (Transition.toState (state.withStep .propose)).withOutput output

/-- We are the proposer and propose the given value (L13, L17-L18). -/
def propose (state : State C) (value : C.Value) (address : C.Address) : Transition C :=
  let proposal : Proposal C :=
    { height := state.height, round := state.round, value, polRound := .nil,
      validatorAddress := address }
  (Transition.toState (state.withStep .propose)).withOutput (.proposal proposal)

/-- A complete proposal: prevote its value unless locked on another one (L22). -/
def prevote (state : State C) (address : C.Address) (proposal : Proposal C) : Transition C :=
  let proposed := C.id proposal.value
  let value : NilOrVal C.ValueId :=
    match state.locked with
    | some locked => if C.id locked.value = proposed then .val proposed else .nil
    | none => .val proposed
  let output := Output.vote (Vote.newPrevote state.height state.round value address)
  (Transition.toState (state.withStep .prevote)).withOutput output

/-- A proposal with a polka from an earlier round: prevote its value unless
locked on another value at a round above the proof-of-lock round (L28). -/
def prevotePrevious (state : State C) (address : C.Address) (proposal : Proposal C) :
    Transition C :=
  let vr := proposal.polRound
  let proposed := C.id proposal.value
  let value : NilOrVal C.ValueId :=
    match state.locked with
    | some locked =>
        if locked.round ≤ vr then .val proposed
        else if C.id locked.value = proposed then .val proposed
        else .nil
    | none => .val proposed
  let output := Output.vote (Vote.newPrevote state.height state.round value address)
  (Transition.toState (state.withStep .prevote)).withOutput output

/-- An invalid proposal or a timeout: prevote nil (L22/L25, L28/L31, L57). -/
def prevoteNil (state : State C) (address : C.Address) : Transition C :=
  let output := Output.vote (Vote.newPrevote state.height state.round .nil address)
  (Transition.toState (state.withStep .prevote)).withOutput output

/-- A polka for the proposed value: lock on it and precommit it (L36).  Only
effective in the prevote step. -/
def precommit (state : State C) (address : C.Address) (proposal : Proposal C) :
    Transition C :=
  if state.step ≠ .prevote then Transition.toState state
  else
    let value := proposal.value
    let output := Output.vote (Vote.newPrecommit state.height state.round (.val (C.id value)) address)
    let next := ((state.setLocked value).setValid value).withStep .precommit
    (Transition.toState next).withOutput output

/-- A polka for nil or the prevote timeout: precommit nil (L44, L61). -/
def precommitNil (state : State C) (address : C.Address) : Transition C :=
  let output := Output.vote (Vote.newPrecommit state.height state.round .nil address)
  (Transition.toState (state.withStep .precommit)).withOutput output

/-- We are not the proposer: schedule the propose timeout (L11, L20). -/
def scheduleTimeoutPropose (state : State C) : Transition C :=
  (Transition.toState (state.withStep .propose)).withOutput
    (.scheduleTimeout (Timeout.propose state.round))

/-- A polka for any value: schedule the prevote timeout (L34). -/
def scheduleTimeoutPrevote (state : State C) : Transition C :=
  (Transition.toState state).withOutput (.scheduleTimeout (Timeout.prevote state.round))

/-- A quorum of precommits for any value: schedule the precommit timeout (L47). -/
def scheduleTimeoutPrecommit (state : State C) : Transition C :=
  (Transition.toState state).withOutput (.scheduleTimeout (Timeout.precommit state.round))

/-- A polka for a value after we already precommitted: update the valid value (L36/L42). -/
def setValidValue (state : State C) (proposal : Proposal C) : Transition C :=
  Transition.toState (state.setValid proposal.value)

/-- Move to a higher round (L65). -/
def roundSkip (state : State C) (round : Round) : Transition C :=
  (Transition.toState ((state.withRound round).withStep .unstarted)).withOutput (.newRound round)

/-- A quorum of precommits for a value: decide it (L49). -/
def commit (state : State C) (round : Round) (proposal : Proposal C) : Transition C :=
  match state.decision with
  | some decision =>
      if C.id decision.value = C.id proposal.value then Transition.toState state
      else Transition.invalid state
  | none =>
      let next := (state.setDecision proposal.round proposal.value).withStep .commit
      (Transition.toState next).withOutput (.decision round proposal)

/-- `apply`: the transition taken on an input at the current state. -/
def apply (state : State C) (info : Info C) (input : Input C) : Transition C :=
  let thisRound := decide (state.round = info.inputRound)
  match state.step, input with
  -- L11/L14 and L11/L20
  | .unstarted, .newRound round =>
      if info.isProposer then proposeValidOrGetValue (state.withRound round) info.address
      else scheduleTimeoutPropose (state.withRound round)
  -- L18
  | .propose, .proposeValue value =>
      if thisRound then propose state value info.address else Transition.invalid state
  -- L22 with a valid proposal
  | .propose, .proposal proposal =>
      if thisRound && proposal.polRound.isNil then prevote state info.address proposal
      else Transition.invalid state
  -- L22 with an invalid proposal
  | .propose, .invalidProposal =>
      if thisRound then prevoteNil state info.address else Transition.invalid state
  -- L28 with a valid proposal
  | .propose, .proposalAndPolkaPrevious proposal =>
      if thisRound && isValidPolRound state proposal.polRound then
        prevotePrevious state info.address proposal
      else Transition.invalid state
  -- L28 with an invalid proposal
  | .propose, .invalidProposalAndPolkaPrevious proposal =>
      if thisRound && isValidPolRound state proposal.polRound then
        prevoteNil state info.address
      else Transition.invalid state
  -- L57, as proposer and as non-proposer
  | .propose, .timeoutPropose =>
      if thisRound && info.isProposer then prevoteNil state info.address
      else if thisRound then prevoteNil state info.address
      else Transition.invalid state
  -- L34
  | .prevote, .polkaAny =>
      if thisRound then scheduleTimeoutPrevote state else Transition.invalid state
  -- L45
  | .prevote, .polkaNil =>
      if thisRound then precommitNil state info.address else Transition.invalid state
  -- L36/L37
  | .prevote, .proposalAndPolkaCurrent proposal =>
      if thisRound then precommit state info.address proposal else Transition.invalid state
  -- L61
  | .prevote, .timeoutPrevote =>
      if thisRound then precommitNil state info.address else Transition.invalid state
  -- L36/L42
  | .precommit, .proposalAndPolkaCurrent proposal =>
      if thisRound then setValidValue state proposal else Transition.invalid state
  -- No transition out of the commit step.
  | .commit, _ => Transition.invalid state
  -- L47
  | _, .precommitAny =>
      if thisRound then scheduleTimeoutPrecommit state else Transition.invalid state
  -- L65
  | _, .timeoutPrecommit =>
      if thisRound then roundSkip state info.inputRound.increment else Transition.invalid state
  -- L55
  | _, .skipRound round =>
      if state.round < round then roundSkip state round else Transition.invalid state
  -- L49, in every step and without a round guard
  | _, .proposalAndPrecommitValue proposal => commit state state.round proposal
  | _, _ => Transition.invalid state

end Malachite.StateMachine
