import Malachite.StateMachine.Apply

namespace Malachite.StateMachine

/-! The inputs the driver's multiplexer makes due on a step change, and what
the round state machine does with them.  None of them starts a round or times
out, so none changes the round; each leaves the step as it is or moves it
forward, and from `unstarted` only to `commit`.  `Step.passes` bounds the
passes of the driver's pending-input loop that a state at a step may still
call for. -/

variable {C : Context}

/-- A proposal, a polka or a quorum of precommits of the round: the inputs
`multiplex_step_change` produces. -/
def Input.isStepInput : Input C → Bool
  | .proposal _ | .invalidProposal | .proposalAndPolkaPrevious _
  | .invalidProposalAndPolkaPrevious _ | .polkaAny | .polkaNil | .proposalAndPolkaCurrent _
  | .precommitAny | .proposalAndPrecommitValue _ => true
  | _ => false

/-- The passes of the pending-input loop that a round state at this step may
still need: a pass leaves inputs pending only after the step changed, and a
step input moves `unstarted` only to `commit`. -/
def Step.passes : Step → Nat
  | .unstarted => 2
  | .propose => 4
  | .prevote => 3
  | .precommit => 2
  | .commit => 1

theorem Step.passes_pos (step : Step) : 0 < step.passes := by
  cases step <;> decide

theorem Step.passes_le_four (step : Step) : step.passes ≤ 4 := by
  cases step <;> decide

/-- The next state keeps the round, and keeps the step or moves it to one that
needs fewer passes. -/
structure Advances (state next : State C) : Prop where
  round : next.round = state.round
  step : next.step = state.step ∨ next.step.passes < state.step.passes

theorem Advances.refl (state : State C) : Advances state state :=
  ⟨rfl, Or.inl rfl⟩

theorem advances_withStep (state : State C) {step : Step}
    (fewer : step.passes < state.step.passes) : Advances state (state.withStep step) :=
  ⟨rfl, Or.inr fewer⟩

theorem advances_prevote (state : State C) (address : C.Address) (proposal : Proposal C)
    (proposing : state.step = .propose) : Advances state (prevote state address proposal).nextState :=
  advances_withStep state (by rw [proposing]; decide)

theorem advances_prevotePrevious (state : State C) (address : C.Address) (proposal : Proposal C)
    (proposing : state.step = .propose) :
    Advances state (prevotePrevious state address proposal).nextState :=
  advances_withStep state (by rw [proposing]; decide)

theorem advances_prevoteNil (state : State C) (address : C.Address)
    (proposing : state.step = .propose) : Advances state (prevoteNil state address).nextState :=
  advances_withStep state (by rw [proposing]; decide)

theorem advances_precommit (state : State C) (address : C.Address) (proposal : Proposal C) :
    Advances state (precommit state address proposal).nextState := by
  unfold precommit
  split
  · exact Advances.refl state
  · next prevoting =>
      have prevoting : state.step = .prevote := not_not.mp prevoting
      exact ⟨rfl, Or.inr (by simp [prevoting]; decide)⟩

theorem advances_precommitNil (state : State C) (address : C.Address)
    (prevoting : state.step = .prevote) : Advances state (precommitNil state address).nextState :=
  advances_withStep state (by rw [prevoting]; decide)

/-- A commit moves any step but `commit` itself to `commit`. -/
theorem advances_commit (state : State C) (round : Round) (proposal : Proposal C) :
    Advances state (commit state round proposal).nextState := by
  unfold commit
  split
  · split
    · exact Advances.refl state
    · exact Advances.refl state
  · dsimp only
    refine ⟨rfl, ?_⟩
    cases step : state.step
    all_goals first
      | exact Or.inl rfl
      | exact Or.inr (by simp [Step.passes])

/-- A step input keeps the round and moves the step forward or not at all. -/
theorem apply_advances (state : State C) (info : Info C) {input : Input C}
    (stepInput : input.isStepInput) : Advances state (apply state info input).nextState := by
  unfold apply
  split
  all_goals dsimp only
  -- a round start, a proposed value, the timeouts and a skip are not step inputs
  case h_1 | h_2 | h_7 | h_11 | h_15 | h_16 => simp [Input.isStepInput] at stepInput
  -- L22, L26/L32 and L28 move the propose step to prevote
  case h_3 _ _ proposal proposing =>
    split
    · exact advances_prevote state info.address proposal proposing
    · exact Advances.refl state
  case h_4 _ _ proposing =>
    split
    · exact advances_prevoteNil state info.address proposing
    · exact Advances.refl state
  case h_5 _ _ proposal proposing =>
    split
    · exact advances_prevotePrevious state info.address proposal proposing
    · exact Advances.refl state
  case h_6 _ _ _ proposing =>
    split
    · exact advances_prevoteNil state info.address proposing
    · exact Advances.refl state
  -- L44 and L36 move the prevote step to precommit
  case h_9 _ _ prevoting =>
    split
    · exact advances_precommitNil state info.address prevoting
    · exact Advances.refl state
  case h_10 _ _ proposal _ =>
    split
    · exact advances_precommit state info.address proposal
    · exact Advances.refl state
  -- L42 updates the valid value only
  case h_12 =>
    split
    · exact ⟨rfl, Or.inl rfl⟩
    · exact Advances.refl state
  -- L49 commits from any step
  case h_17 _ proposal _ => exact advances_commit state state.round proposal
  -- the timeouts scheduled on L34 and L47 and the invalid transitions keep the state
  all_goals first | exact Advances.refl state | split <;> exact Advances.refl state

end Malachite.StateMachine
