import Malachite.Driver.Process
import Malachite.StateMachine.Invariants

namespace Malachite

/-! What a failed call does to the driver.  The round state machine never
leaves the commit step, and in that step the driver's call into it either
fails or changes nothing.  But `apply_input` takes the round state out of the
driver before it looks up the proposer, and a failed lookup returns without
putting it back: the decision goes with it. -/

variable {C : Context}

namespace Driver

/-- The proposer lookup reads only the proposer and the validator set. -/
theorem getProposer_ok_of_same {driver other : Driver C} {proposer : Validator C}
    (found : driver.getProposer = .ok proposer) (sameProposer : other.proposer = driver.proposer)
    (sameSet : other.validatorSet = driver.validatorSet) : other.getProposer = .ok proposer := by
  unfold getProposer at found ⊢
  rw [sameProposer, sameSet]
  cases known : driver.proposer with
  | none => simp [known] at found
  | some address =>
      cases validator : driver.validatorSet.getByAddress address with
      | none => simp [known, validator] at found
      | some entry => simpa [known, validator] using found

theorem applyInput_of_getProposer_error (driver : Driver C) (inputRound : Round)
    (input : StateMachine.Input C) {error : Error C}
    (failed : ({ driver with roundState := .default } : Driver C).getProposer = .error error) :
    driver.applyInput inputRound input = ({ driver with roundState := .default }, .error error) := by
  simp only [applyInput, failed]

theorem applyInput_of_getProposer_ok (driver : Driver C) (inputRound : Round)
    (input : StateMachine.Input C) {proposer : Validator C}
    (found : ({ driver with roundState := .default } : Driver C).getProposer = .ok proposer) :
    driver.applyInput inputRound input =
      (({ driver with roundState := .default } : Driver C).enterRoundState inputRound
          driver.roundState.step
          (StateMachine.apply driver.roundState ⟨inputRound, driver.address, proposer.address⟩
            input).nextState,
        .ok (StateMachine.apply driver.roundState ⟨inputRound, driver.address, proposer.address⟩
          input).output) := by
  simp only [applyInput, found]

/-- In the commit step a call into the state machine fails, or leaves the
driver as it was and outputs nothing. -/
theorem applyInput_of_commit (driver : Driver C) (inputRound : Round)
    (input : StateMachine.Input C) (committed : driver.roundState.step = .commit) :
    (∃ error, (driver.applyInput inputRound input).2 = .error error) ∨
      driver.applyInput inputRound input = (driver, .ok none) := by
  cases found : ({ driver with roundState := .default } : Driver C).getProposer with
  | error error =>
      exact Or.inl ⟨error, by rw [applyInput_of_getProposer_error driver inputRound input found]⟩
  | ok proposer =>
      refine Or.inr ?_
      rw [applyInput_of_getProposer_ok driver inputRound input found,
        StateMachine.apply_of_commit _ _ _ committed, enterRoundState_eq]
      simp

/-- The errors of `get_proposer`. -/
def ProposerLookupFailed (error : Error C) : Prop :=
  (∃ height round, error = .noProposer height round) ∨ ∃ address, error = .proposerNotFound address

theorem getProposer_error {driver : Driver C} {error : Error C}
    (failed : driver.getProposer = .error error) : ProposerLookupFailed error := by
  unfold getProposer at failed
  cases known : driver.proposer with
  | none =>
      simp only [known, Except.error.injEq] at failed
      exact .inl ⟨_, _, failed.symm⟩
  | some address =>
      cases validator : driver.validatorSet.getByAddress address with
      | none =>
          simp only [known, validator, Except.error.injEq] at failed
          exact .inr ⟨address, failed.symm⟩
      | some entry => simp [known, validator] at failed

/-- A failed call into the state machine is a failed proposer lookup, and leaves the
default round state. -/
theorem applyInput_error {driver : Driver C} {inputRound : Round} {input : StateMachine.Input C}
    {error : Error C} (failed : (driver.applyInput inputRound input).2 = .error error) :
    ProposerLookupFailed error ∧ (driver.applyInput inputRound input).1.roundState = .default := by
  cases found : ({ driver with roundState := .default } : Driver C).getProposer with
  | error reason =>
      rw [applyInput_of_getProposer_error driver inputRound input found] at failed ⊢
      cases failed
      exact ⟨getProposer_error found, rfl⟩
  | ok proposer => simp [applyInput_of_getProposer_ok driver inputRound input found] at failed

theorem applyPendingBatch_error {driver : Driver C} {outputs : List (Output C)}
    {batch : List (Round × StateMachine.Input C)} {error : Error C}
    (failed : (driver.applyPendingBatch outputs batch).2 = .error error) :
    ProposerLookupFailed error ∧ (driver.applyPendingBatch outputs batch).1.roundState = .default := by
  -- one case per way an input of the batch ends
  induction batch generalizing driver outputs with
  | nil => cases failed
  | cons entry rest ih =>
      obtain ⟨round, input⟩ := entry
      simp only [applyPendingBatch] at failed ⊢
      split at failed
      · next _ after reason applied =>
        cases failed
        have lookup := applyInput_error (show (driver.applyInput round input).2 = .error error by
          rw [applied])
        rw [applied] at lookup
        exact lookup
      · exact ih failed
      · exact ih failed

theorem drainPending_error (fuel : Nat) {driver : Driver C} {outputs : List (Output C)}
    {error : Error C} (failed : (drainPending fuel driver outputs).2 = .error error) :
    ProposerLookupFailed error ∧ (drainPending fuel driver outputs).1.roundState = .default := by
  induction fuel generalizing driver outputs with
  | zero => cases failed
  | succ fuel ih =>
      simp only [drainPending] at failed ⊢
      by_cases empty : driver.pendingInputs.isEmpty = true
      · rw [if_pos empty] at failed
        cases failed
      · rw [if_neg empty] at failed ⊢
        split at failed
        · next _ after reason applied =>
          cases failed
          have lookup := applyPendingBatch_error (show
            (({ driver with pendingInputs := [] } : Driver C).applyPendingBatch outputs
              driver.pendingInputs).2 = .error error by rw [applied])
          rw [applied] at lookup
          exact lookup
        · exact ih failed

/-- Everything `apply` can do: refuse an input of another height or a vote of an unknown
validator, with the driver as it was; call the state machine; or store the input and stop. -/
theorem apply_outcomes (driver : Driver C) (input : Input C) :
    (∃ error, ¬ProposerLookupFailed error ∧ driver.apply input = (driver, .error error)) ∨
      (∃ stored : Driver C, ∃ round roundInput,
        driver.apply input = stored.applyInput round roundInput) ∨
      ∃ stored : Driver C, driver.apply input = (stored, .ok none) := by
  cases input with
  | commitCertificate certificate =>
      simp only [apply, applyCommitCertificate]
      split
      · exact .inl ⟨_, by simp [ProposerLookupFailed], rfl⟩
      · split
        · exact .inr (.inl ⟨_, _, _, rfl⟩)
        · exact .inr (.inr ⟨_, rfl⟩)
  | polkaCertificate certificate =>
      simp only [apply, applyPolkaCertificate]
      split
      · exact .inl ⟨_, by simp [ProposerLookupFailed], rfl⟩
      · split
        · exact .inr (.inl ⟨_, _, _, rfl⟩)
        · exact .inr (.inr ⟨_, rfl⟩)
  | newRound height round proposer => exact .inr (.inl ⟨_, _, _, rfl⟩)
  | proposeValue round value => exact .inr (.inl ⟨_, _, _, rfl⟩)
  | proposal proposal validity =>
      simp only [apply, applyProposal]
      split
      · exact .inl ⟨_, by simp [ProposerLookupFailed], rfl⟩
      · split
        · exact .inr (.inl ⟨_, _, _, rfl⟩)
        · exact .inr (.inr ⟨_, rfl⟩)
  | vote vote =>
      simp only [apply, applyVote]
      split
      · exact .inl ⟨_, by simp [ProposerLookupFailed], rfl⟩
      · split
        · exact .inl ⟨_, by simp [ProposerLookupFailed], rfl⟩
        · -- a vote that reaches no threshold, or one the round ignores, stops after storing
          split
          · exact .inr (.inr ⟨_, rfl⟩)
          · split
            · exact .inr (.inr ⟨_, rfl⟩)
            · exact .inr (.inl ⟨_, _, _, rfl⟩)
  | timeoutElapsed timeout =>
      simp only [apply, applyTimeout]
      split
      · exact .inr (.inl ⟨_, _, _, rfl⟩)
      · exact .inr (.inl ⟨_, _, _, rfl⟩)
      · exact .inr (.inl ⟨_, _, _, rfl⟩)
      · exact .inr (.inr ⟨_, rfl⟩)

theorem apply_error (driver : Driver C) (input : Input C) {error : Error C}
    (failed : (driver.apply input).2 = .error error) :
    ((driver.apply input).1 = driver ∧ ¬ProposerLookupFailed error) ∨
      (ProposerLookupFailed error ∧ (driver.apply input).1.roundState = .default) := by
  rcases apply_outcomes driver input with ⟨reason, notLookup, refused⟩ |
      ⟨stored, round, roundInput, called⟩ | ⟨stored, quiet⟩
  · rw [refused] at failed ⊢
    cases failed
    exact .inl ⟨rfl, notLookup⟩
  · rw [called] at failed ⊢
    exact .inr (applyInput_error failed)
  · rw [quiet] at failed
    cases failed

/-- What a failed `process` leaves: the driver as it was, for an input of another height or
a vote of an unknown validator; or the default round state, when the proposer lookup of a
call into the state machine fails, the input's own or a pending one's. -/
theorem process_error (driver : Driver C) (input : Input C) {error : Error C}
    (failed : (driver.process input).2 = .error error) :
    ((driver.process input).1 = driver ∧ ¬ProposerLookupFailed error) ∨
      (ProposerLookupFailed error ∧ (driver.process input).1.roundState = .default) := by
  unfold process at failed ⊢
  cases applied : driver.apply input with
  | mk after result =>
      rw [applied] at failed
      cases result with
      | error reason =>
          simp only [Except.error.injEq] at failed
          subst failed
          have refused := apply_error driver input
            (show (driver.apply input).2 = .error reason by rw [applied])
          rw [applied] at refused
          exact refused
      | ok output =>
          cases output with
          | none => simp at failed
          | some roundOutput => exact .inr (drainPending_error pendingBatches failed)

/-- A driver at height 1 that has not been told a proposer is asked to propose: the lookup
fails, and the round state of height 1 gives way to the default one, of height 0; the error
names height 0 too, as it is made after the round state was taken out. -/
theorem round_state_reset_without_proposer :
    let driver : Driver testContext := Driver.new 1 fourValidators 0 .default
    let processed := driver.process (.proposeValue (.some 0) 5)
    processed.2 = .error (.noProposer 0 .nil) ∧ driver.roundState ≠ .default ∧
      processed.1.roundState = .default := by
  intro driver processed
  have failed : processed.2 = .error (.noProposer 0 .nil) := by decide
  have lookup : ProposerLookupFailed (.noProposer 0 .nil : Error testContext) := .inl ⟨0, .nil, rfl⟩
  refine ⟨failed, by decide, ?_⟩
  rcases process_error driver _ failed with ⟨-, notLookup⟩ | ⟨-, reset⟩
  · exact absurd lookup notLookup
  · exact reset

/-- A node decides at round 0, is given a new round whose proposer is not a
validator, and then, from the default round state this leaves, decides the
same proposal again at round 2 on the precommits it still holds. -/
theorem decision_forgotten_after_unknown_proposer :
    ((Driver.new 0 fourValidators 0 .default : Driver testContext).run
      [.newRound 0 (.some 0) 0, .proposeValue (.some 0) 5,
        .proposal ⟨⟨0, .some 0, 5, .nil, 0⟩, 0⟩ .valid,
        .vote ⟨Vote.newPrevote 0 (.some 0) (.val 5) 1, 1⟩,
        .vote ⟨Vote.newPrevote 0 (.some 0) (.val 5) 2, 2⟩,
        .vote ⟨Vote.newPrevote 0 (.some 0) (.val 5) 3, 3⟩,
        .vote ⟨Vote.newPrecommit 0 (.some 0) (.val 5) 1, 1⟩,
        .vote ⟨Vote.newPrecommit 0 (.some 0) (.val 5) 2, 2⟩,
        .vote ⟨Vote.newPrecommit 0 (.some 0) (.val 5) 3, 3⟩,
        .newRound 0 (.some 1) 9, .newRound 0 (.some 2) 0,
        .proposal ⟨⟨0, .some 0, 5, .nil, 0⟩, 0⟩ .valid]).2.filter
      (fun output => match output with
        | .decide _ _ => true
        | _ => false) =
      [.decide (.some 0) ⟨0, .some 0, 5, .nil, 0⟩, .decide (.some 2) ⟨0, .some 0, 5, .nil, 0⟩] := by
  decide

end Driver

end Malachite
