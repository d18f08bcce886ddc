import Malachite.Types.Context

namespace Malachite.StateMachine

/-! The data of the round state machine (`core-state-machine`): its state,
inputs, outputs and transitions. -/

/-- The step within a round, ordered as declared (`derive(Ord)`). -/
inductive Step where
  | unstarted
  | propose
  | prevote
  | precommit
  | commit
deriving DecidableEq, Repr

namespace Step

def rank : Step → Nat
  | .unstarted => 0
  | .propose => 1
  | .prevote => 2
  | .precommit => 3
  | .commit => 4

theorem rank_injective : Function.Injective rank := by
  intro left right same
  cases left <;> cases right <;> first | rfl | simp [rank] at same

instance : LinearOrder Step := LinearOrder.lift' rank rank_injective

end Step

variable {C : Context}

/-- A value and the round it is associated with. -/
structure RoundValue (V : Type) where
  value : V
  round : Round
deriving DecidableEq

variable (C) in
structure State where
  height : C.Height
  round : Round
  step : Step
  /-- The value we are locked on: we saw a polka for it before precommitting. -/
  locked : Option (RoundValue C.Value)
  /-- The value for which we saw a polka. -/
  valid : Option (RoundValue C.Value)
  /-- The decided value; its round is the round of the decided proposal. -/
  decision : Option (RoundValue C.Value)
deriving DecidableEq

namespace State

def new (height : C.Height) (round : Round) : State C :=
  { height, round, step := .unstarted, locked := none, valid := none, decision := none }

/-- `State::default()`: height `ZERO`, round `Nil`. -/
def default : State C := new C.zero .nil

@[simps] def withRound (state : State C) (round : Round) : State C := { state with round }

@[simps] def withStep (state : State C) (step : Step) : State C := { state with step }

@[simps] def setLocked (state : State C) (value : C.Value) : State C :=
  { state with locked := some ⟨value, state.round⟩ }

@[simps] def setValid (state : State C) (value : C.Value) : State C :=
  { state with valid := some ⟨value, state.round⟩ }

@[simps] def setDecision (state : State C) (proposalRound : Round) (value : C.Value) : State C :=
  { state with decision := some ⟨value, proposalRound⟩ }

end State

variable (C) in
/-- Inputs of the round state machine; the comments name the lines of the
Tendermint paper that each input stands for. -/
inductive Input where
  | noInput
  /-- L14/L20 -/
  | newRound (round : Round)
  /-- L14 -/
  | proposeValue (value : C.Value)
  /-- L22 with a valid proposal -/
  | proposal (proposal : Proposal C)
  /-- L26/L32 -/
  | invalidProposal
  /-- L28 with a valid proposal -/
  | proposalAndPolkaPrevious (proposal : Proposal C)
  /-- L28 with an invalid proposal -/
  | invalidProposalAndPolkaPrevious (proposal : Proposal C)
  /-- L34 -/
  | polkaAny
  /-- L44 -/
  | polkaNil
  /-- L36 -/
  | proposalAndPolkaCurrent (proposal : Proposal C)
  /-- L47 -/
  | precommitAny
  /-- L49 -/
  | proposalAndPrecommitValue (proposal : Proposal C)
  /-- L55 -/
  | skipRound (round : Round)
  /-- L57 -/
  | timeoutPropose
  /-- L61 -/
  | timeoutPrevote
  /-- L65 -/
  | timeoutPrecommit
deriving DecidableEq

variable (C) in
inductive Output where
  | newRound (round : Round)
  | proposal (proposal : Proposal C)
  | vote (vote : Vote C)
  | scheduleTimeout (timeout : Timeout)
  | getValueAndScheduleTimeout (height : C.Height) (round : Round) (timeout : Timeout)
  | decision (round : Round) (proposal : Proposal C)
deriving DecidableEq

variable (C) in
structure Transition where
  nextState : State C
  output : Option (Output C)
  valid : Bool

namespace Transition

/-- `Transition::to`, a valid transition to the given state. -/
@[simps] def toState (nextState : State C) : Transition C := ⟨nextState, none, true⟩

@[simps] def invalid (nextState : State C) : Transition C := ⟨nextState, none, false⟩

@[simps] def withOutput (transition : Transition C) (output : Output C) : Transition C :=
  { transition with output := some output }

end Transition

variable (C) in
/-- Immutable information about the input and our node. -/
structure Info where
  /-- The round the input is for; it may differ from the current round. -/
  inputRound : Round
  address : C.Address
  /-- The proposer of the round we are at. -/
  proposer : C.Address

def Info.isProposer (info : Info C) : Bool := decide (info.address = info.proposer)

end Malachite.StateMachine
