import Malachite.Driver.Errors
import Malachite.Driver.SelfVotes
import Malachite.StateMachine.Progress

namespace Malachite.Driver

/-! The pending-input loop of `Driver::process` ends.  `apply_input` refills
`pending_inputs` only when the step changes to a started step, and then with
`multiplex_step_change`, whose inputs are all step inputs: none of them
changes the round, and each keeps the step or moves it to one that needs
fewer passes (`StateMachine.apply_advances`).  So a pass of the loop leaves
inputs pending only at a step with fewer passes left, and `pendingBatches`
passes are as many as the loop can make.  The proposer lookup that
`apply_input` makes first succeeds in every pass once it succeeded for the
input itself, so no pass fails. -/

variable {C : Context}

/-- Every pending input is a step input.  The source assigns `pending_inputs`
only an empty vector or what `multiplex_step_change` returns. -/
def PendingStepInputs (driver : Driver C) : Prop :=
  ∀ entry ∈ driver.pendingInputs, entry.2.isStepInput

/-- `process` with the pending-input loop given `fuel` passes. -/
def processWithin (fuel : Nat) (driver : Driver C) (input : Input C) :
    Driver C × Except (Error C) (List (Output C)) :=
  match driver.apply input with
  | (driver, .error error) => (driver, .error error)
  | (driver, .ok none) => (driver, .ok [])
  | (driver, .ok (some roundOutput)) =>
      let (driver, outputs) := driver.liftOutput roundOutput
      drainPending fuel driver outputs

theorem process_eq_processWithin (driver : Driver C) (input : Input C) :
    driver.process input = driver.processWithin pendingBatches input := rfl

section Multiplex

theorem multiplexProposal_isStepInput {driver : Driver C} {proposal : Proposal C}
    {validity : Validity} {input : StateMachine.Input C}
    (multiplexed : driver.multiplexProposal proposal validity = some input) :
    input.isStepInput := by
  simp only [multiplexProposal] at multiplexed
  split_ifs at multiplexed <;> cases multiplexed <;> rfl

theorem findNonValueThreshold_cases {voteKeeper : Votes.VoteKeeper C} {round : Round}
    {threshold : Votes.Output C.ValueId}
    (found : findNonValueThreshold voteKeeper round = some threshold) :
    threshold = .precommitAny ∨ threshold = .polkaNil ∨ threshold = .polkaAny := by
  unfold findNonValueThreshold at found
  split_ifs at found <;> cases found <;> simp

/-- Every threshold but a skip is multiplexed into a step input. -/
theorem multiplexVoteThreshold_isStepInput (driver : Driver C) {threshold : Votes.Output C.ValueId}
    (notSkip : ∀ round, threshold ≠ .skipRound round) (thresholdRound : Round) :
    (driver.multiplexVoteThreshold threshold thresholdRound).2.isStepInput := by
  cases threshold with
  | skipRound round => exact absurd rfl (notSkip round)
  | precommitValue valueId =>
      simp only [multiplexVoteThreshold]
      split
      · split <;> rfl
      · rfl
  | polkaValue valueId =>
      simp only [multiplexVoteThreshold]
      split
      · split
        · split_ifs <;> rfl
        · split_ifs <;> rfl
      · rfl
  | polkaAny => rfl
  | polkaNil => rfl
  | precommitAny => rfl

/-- The inputs a step change makes due are step inputs. -/
theorem multiplexStepChange_isStepInput (driver : Driver C) (round : Round) :
    ∀ entry ∈ driver.multiplexStepChange round, entry.2.isStepInput := by
  intro entry member
  simp only [multiplexStepChange, List.mem_append] at member
  rcases member with fromProposal | fromThreshold
  · obtain ⟨proposed, -, multiplexed⟩ := List.mem_filterMap.mp fromProposal
    split at multiplexed
    · obtain ⟨input, found, rfl⟩ := Option.map_eq_some_iff.mp multiplexed
      exact multiplexProposal_isStepInput found
    · split at multiplexed
      · cases multiplexed
        exact multiplexVoteThreshold_isStepInput driver (fun _ => by simp) round
      · cases multiplexed
    · cases multiplexed
  · obtain ⟨threshold, found, rfl⟩ := Option.mem_toList.mp fromThreshold |> Option.map_eq_some_iff.mp
    apply multiplexVoteThreshold_isStepInput
    rcases findNonValueThreshold_cases found with rfl | rfl | rfl <;> simp

end Multiplex

section Frame

/-- `apply_input` keeps the pending inputs, or replaces them with the inputs
the new step calls for. -/
theorem applyInput_pendingInputs (driver : Driver C) (inputRound : Round)
    (input : StateMachine.Input C) :
    (driver.applyInput inputRound input).1.pendingInputs = driver.pendingInputs ∨
      ∃ stepped : Driver C,
        (driver.applyInput inputRound input).1.pendingInputs = stepped.multiplexStepChange inputRound := by
  cases found : ({ driver with roundState := .default } : Driver C).getProposer with
  | error error =>
      rw [applyInput_of_getProposer_error driver inputRound input found]
      exact Or.inl rfl
  | ok proposer =>
      rw [applyInput_of_getProposer_ok driver inputRound input found, enterRoundState_eq]
      dsimp only
      split
      · exact Or.inr ⟨_, rfl⟩
      · exact Or.inl rfl

/-- A call into the state machine that returns leaves a driver whose proposer
lookup succeeds. -/
theorem applyInput_getProposer {driver : Driver C} {inputRound : Round}
    {input : StateMachine.Input C} {output : Option (StateMachine.Output C)}
    (returned : (driver.applyInput inputRound input).2 = .ok output) :
    ∃ proposer, (driver.applyInput inputRound input).1.getProposer = .ok proposer := by
  cases found : ({ driver with roundState := .default } : Driver C).getProposer with
  | error error =>
      rw [applyInput_of_getProposer_error driver inputRound input found] at returned
      cases returned
  | ok proposer =>
      rw [applyInput_of_getProposer_ok driver inputRound input found, enterRoundState_eq]
      exact ⟨proposer, getProposer_ok_of_same found rfl rfl⟩

/-- `apply` fails or returns nothing with the pending inputs as they were, or
ends in a call into the state machine from a driver with those pending
inputs. -/
theorem apply_cases (driver : Driver C) (input : Input C) :
    ((driver.apply input).1.pendingInputs = driver.pendingInputs ∧
        ∀ roundOutput, (driver.apply input).2 ≠ .ok (some roundOutput)) ∨
      ∃ (entered : Driver C) (inputRound : Round) (roundInput : StateMachine.Input C),
        entered.pendingInputs = driver.pendingInputs ∧
          driver.apply input = entered.applyInput inputRound roundInput := by
  cases input with
  | commitCertificate certificate =>
      simp only [Driver.apply, applyCommitCertificate]
      split
      · exact Or.inl ⟨rfl, fun _ => by simp⟩
      · have kept : (driver.storeAndMultiplexCommitCertificate certificate).1.pendingInputs =
            driver.pendingInputs := by
          rw [storeAndMultiplexCommitCertificate_fst]
        generalize driver.storeAndMultiplexCommitCertificate certificate = stored at kept
        obtain ⟨updated, roundInput⟩ := stored
        cases roundInput with
        | none => exact Or.inl ⟨kept, fun _ => by simp⟩
        | some roundInput => exact Or.inr ⟨updated, _, roundInput, kept, rfl⟩
  | polkaCertificate certificate =>
      simp only [Driver.apply, applyPolkaCertificate]
      split
      · exact Or.inl ⟨rfl, fun _ => by simp⟩
      · have kept : (driver.storeAndMultiplexPolkaCertificate certificate).1.pendingInputs =
            driver.pendingInputs := by
          obtain ⟨polkaCertificates, added⟩ := addPolkaCertificate_eq driver certificate
          rw [storeAndMultiplexPolkaCertificate_fst, added]
        generalize driver.storeAndMultiplexPolkaCertificate certificate = stored at kept
        obtain ⟨updated, entry⟩ := stored
        cases entry with
        | none => exact Or.inl ⟨kept, fun _ => by simp⟩
        | some entry => exact Or.inr ⟨updated, entry.1, entry.2, kept, rfl⟩
  | newRound height round proposer =>
      simp only [Driver.apply, applyNewRound]
      refine Or.inr ⟨_, round, _, ?_, rfl⟩
      rfl
  | proposeValue round value => exact Or.inr ⟨driver, round, _, rfl, rfl⟩
  | proposal signedProposal validity =>
      simp only [Driver.apply, applyProposal]
      split
      · exact Or.inl ⟨rfl, fun _ => by simp⟩
      · have kept : (driver.storeAndMultiplexProposal signedProposal validity).1.pendingInputs =
            driver.pendingInputs := rfl
        generalize driver.storeAndMultiplexProposal signedProposal validity = stored at kept
        obtain ⟨updated, roundInput⟩ := stored
        cases roundInput with
        | none => exact Or.inl ⟨kept, fun _ => by simp⟩
        | some roundInput => exact Or.inr ⟨updated, _, roundInput, kept, rfl⟩
  | vote vote =>
      simp only [Driver.apply, applyVote]
      split
      · exact Or.inl ⟨rfl, fun _ => by simp⟩
      split
      · exact Or.inl ⟨rfl, fun _ => by simp⟩
      generalize driver.voteKeeper.applyVote vote driver.round = counted
      obtain ⟨voteKeeper, output⟩ := counted
      cases output with
      | none => exact Or.inl ⟨rfl, fun _ => by simp⟩
      | some output =>
          dsimp only
          obtain ⟨polkaCertificates, roundCertificate, stored⟩ :=
            storeThresholdCertificate_eq { driver with voteKeeper } output vote.message.round
              driver.round
          rw [stored]
          split
          · exact Or.inl ⟨rfl, fun _ => by simp⟩
          · refine Or.inr ⟨_, _, _, ?_, rfl⟩
            rfl
  | timeoutElapsed timeout =>
      simp only [Driver.apply, applyTimeout]
      cases timeout.kind with
      | propose => exact Or.inr ⟨driver, _, _, rfl, rfl⟩
      | prevote => exact Or.inr ⟨driver, _, _, rfl, rfl⟩
      | precommit => exact Or.inr ⟨driver, _, _, rfl, rfl⟩
      | rebroadcast => exact Or.inl ⟨rfl, fun _ => by simp⟩

/-- A call into the state machine keeps the pending inputs step inputs. -/
theorem PendingStepInputs.applyInput {driver : Driver C} (pending : PendingStepInputs driver)
    (inputRound : Round) (input : StateMachine.Input C) :
    PendingStepInputs (driver.applyInput inputRound input).1 := by
  intro entry member
  rcases applyInput_pendingInputs driver inputRound input with same | ⟨stepped, refilled⟩
  · rw [same] at member
    exact pending entry member
  · rw [refilled] at member
    exact multiplexStepChange_isStepInput stepped inputRound entry member

theorem PendingStepInputs.apply {driver : Driver C} (pending : PendingStepInputs driver)
    (input : Input C) : PendingStepInputs (driver.apply input).1 := by
  rcases apply_cases driver input with ⟨same, -⟩ | ⟨entered, inputRound, roundInput, kept, applied⟩
  · intro entry member
    rw [same] at member
    exact pending entry member
  · have enteredPending : PendingStepInputs entered := by
      intro entry member
      rw [kept] at member
      exact pending entry member
    rw [applied]
    exact enteredPending.applyInput inputRound roundInput

theorem PendingStepInputs.liftOutput {driver : Driver C} (pending : PendingStepInputs driver)
    (output : StateMachine.Output C) : PendingStepInputs (driver.liftOutput output).1 := by
  obtain ⟨lastPrevote, lastPrecommit, lifted⟩ := liftOutput_fst driver output
  rw [lifted]
  exact pending

/-- An output of `apply` comes from a call into the state machine whose
proposer lookup succeeded, and the driver it leaves finds the proposer too. -/
theorem apply_getProposer {driver : Driver C} {input : Input C}
    {roundOutput : StateMachine.Output C} (returned : (driver.apply input).2 = .ok (some roundOutput)) :
    ∃ proposer, (driver.apply input).1.getProposer = .ok proposer := by
  rcases apply_cases driver input with ⟨-, quiet⟩ | ⟨entered, inputRound, roundInput, -, applied⟩
  · exact absurd returned (quiet roundOutput)
  · rw [applied] at returned ⊢
    exact applyInput_getProposer returned

end Frame

section Loop

/-- What the pending-input loop keeps from the driver `start` a pass begins
with: the round, what the proposer lookup reads and step inputs pending; and
either nothing pending at the starting step, or a step with fewer passes. -/
structure Progress (start driver : Driver C) : Prop where
  round : driver.round = start.round
  proposer : driver.proposer = start.proposer
  validatorSet : driver.validatorSet = start.validatorSet
  pending : PendingStepInputs driver
  fewer : (driver.pendingInputs = [] ∧ driver.roundState.step = start.roundState.step) ∨
    driver.roundState.step.passes < start.roundState.step.passes

theorem Progress.start {driver : Driver C} (empty : driver.pendingInputs = []) :
    Progress driver driver :=
  ⟨rfl, rfl, rfl, fun _ member => by simp [empty] at member, Or.inl ⟨empty, rfl⟩⟩

theorem Progress.passes_le {start driver : Driver C} (progress : Progress start driver) :
    driver.roundState.step.passes ≤ start.roundState.step.passes := by
  rcases progress.fewer with ⟨-, same⟩ | fewer
  · rw [same]
  · exact Nat.le_of_lt fewer

theorem Progress.getProposer {start driver : Driver C} {proposer : Validator C}
    (progress : Progress start driver) (found : start.getProposer = .ok proposer) :
    driver.getProposer = .ok proposer :=
  getProposer_ok_of_same found progress.proposer progress.validatorSet

/-- One step input of a pass: the call succeeds and progress is kept.  A step
change refills the pending inputs, but only at a step with fewer passes. -/
theorem Progress.applyInput {start driver : Driver C} {proposer : Validator C}
    (progress : Progress start driver) (found : start.getProposer = .ok proposer)
    (inputRound : Round) {input : StateMachine.Input C} (stepInput : input.isStepInput) :
    ∃ next output, driver.applyInput inputRound input = (next, .ok output) ∧ Progress start next := by
  have lookup : ({ driver with roundState := .default } : Driver C).getProposer = .ok proposer :=
    getProposer_ok_of_same found progress.proposer progress.validatorSet
  rw [applyInput_of_getProposer_ok driver inputRound input lookup, enterRoundState_eq]
  refine ⟨_, _, rfl, ?_⟩
  obtain ⟨sameRound, stepped⟩ := StateMachine.apply_advances driver.roundState
    ⟨inputRound, driver.address, proposer.address⟩ stepInput
  generalize (StateMachine.apply driver.roundState ⟨inputRound, driver.address, proposer.address⟩
    input).nextState = next at sameRound stepped ⊢
  refine ⟨sameRound.trans progress.round, progress.proposer, progress.validatorSet, ?_, ?_⟩
  · intro entry member
    dsimp only at member
    split at member
    · exact multiplexStepChange_isStepInput _ inputRound entry member
    · exact progress.pending entry member
  · rcases stepped with same | fewer
    · -- the step is unchanged, so nothing is refilled
      have unchanged : ¬(driver.roundState.step ≠ next.step ∧ next.step ≠ .unstarted) :=
        fun changed => changed.1 same.symm
      dsimp only
      rw [if_neg unchanged]
      rcases progress.fewer with ⟨empty, atStart⟩ | fewerBefore
      · exact Or.inl ⟨empty, same.trans atStart⟩
      · exact Or.inr (same ▸ fewerBefore)
    · exact Or.inr (Nat.lt_of_lt_of_le fewer progress.passes_le)

theorem Progress.liftOutput {start driver : Driver C} (progress : Progress start driver)
    (output : StateMachine.Output C) : Progress start (driver.liftOutput output).1 := by
  obtain ⟨lastPrevote, lastPrecommit, lifted⟩ := liftOutput_fst driver output
  rw [lifted]
  exact ⟨progress.round, progress.proposer, progress.validatorSet, progress.pending, progress.fewer⟩

/-- A pass over a batch of step inputs succeeds and keeps progress. -/
theorem Progress.applyPendingBatch {start : Driver C} {proposer : Validator C}
    (found : start.getProposer = .ok proposer) (batch : List (Round × StateMachine.Input C))
    (steps : ∀ entry ∈ batch, entry.2.isStepInput) :
    ∀ {driver : Driver C} (outputs : List (Output C)), Progress start driver →
      ∃ next outputs', driver.applyPendingBatch outputs batch = (next, .ok outputs') ∧
        Progress start next := by
  induction batch with
  | nil =>
      intro driver outputs progress
      exact ⟨driver, outputs, rfl, progress⟩
  | cons entry rest ih =>
      intro driver outputs progress
      obtain ⟨inputRound, input⟩ := entry
      have later : ∀ entry ∈ rest, entry.2.isStepInput :=
        fun entry member => steps entry (List.mem_cons_of_mem _ member)
      obtain ⟨next, output, applied, progressed⟩ :=
        progress.applyInput found inputRound (steps _ List.mem_cons_self)
      cases output with
      | none =>
          simp only [Driver.applyPendingBatch, applied]
          exact ih later outputs progressed
      | some output =>
          have lifted := progressed.liftOutput output
          simp only [Driver.applyPendingBatch, applied]
          generalize next.liftOutput output = result at lifted ⊢
          obtain ⟨liftedDriver, emitted⟩ := result
          exact ih later (outputs ++ emitted) lifted

theorem drainPending_of_empty {driver : Driver C} (empty : driver.pendingInputs = [])
    (fuel : Nat) (outputs : List (Output C)) : drainPending fuel driver outputs = (driver, .ok outputs) := by
  cases fuel with
  | zero => rfl
  | succ fuel => simp [drainPending, empty]

/-- The loop, given as many passes as the pending step needs, empties the
pending inputs without failing and keeps the round; more passes change
nothing.  By induction on the passes, each pass by `Progress.applyPendingBatch`. -/
theorem drainPending_settles {proposer : Validator C} (fuel : Nat) :
    ∀ {driver : Driver C} (outputs : List (Output C)), driver.getProposer = .ok proposer →
      PendingStepInputs driver →
      (driver.pendingInputs = [] ∨ driver.roundState.step.passes ≤ fuel) →
      ∃ settled outputs', (∀ extra, drainPending (fuel + extra) driver outputs =
          (settled, .ok outputs')) ∧ settled.pendingInputs = [] ∧ settled.round = driver.round := by
  induction fuel with
  | zero =>
      intro driver outputs _ _ due
      have empty : driver.pendingInputs = [] :=
        due.resolve_right (Nat.not_le.mpr driver.roundState.step.passes_pos)
      exact ⟨driver, outputs, fun extra => drainPending_of_empty empty _ outputs, empty, rfl⟩
  | succ fuel ih =>
      intro driver outputs found pending due
      by_cases empty : driver.pendingInputs = []
      · exact ⟨driver, outputs, fun extra => drainPending_of_empty empty _ outputs, empty, rfl⟩
      -- one pass over the batch taken out of the driver
      have taken : Progress ({ driver with pendingInputs := [] } : Driver C)
          { driver with pendingInputs := [] } := Progress.start rfl
      have takenFound : ({ driver with pendingInputs := [] } : Driver C).getProposer =
          .ok proposer := getProposer_ok_of_same found rfl rfl
      obtain ⟨next, outputs', batched, progress⟩ :=
        Progress.applyPendingBatch takenFound driver.pendingInputs pending outputs taken
      have due' : next.pendingInputs = [] ∨ next.roundState.step.passes ≤ fuel := by
        rcases progress.fewer with ⟨done, -⟩ | fewer
        · exact Or.inl done
        · have within := due.resolve_left empty
          change next.roundState.step.passes < driver.roundState.step.passes at fewer
          exact Or.inr (by omega)
      obtain ⟨settled, outputs'', stable, done, sameRound⟩ :=
        ih outputs' (progress.getProposer takenFound) progress.pending due'
      refine ⟨settled, outputs'', fun extra => ?_, done, sameRound.trans progress.round⟩
      rw [show fuel + 1 + extra = fuel + extra + 1 by omega]
      simp only [drainPending, List.isEmpty_iff, empty, if_false, batched]
      exact stable extra

/-- When `apply` returns an output, `process` with at least `pendingBatches`
passes ends with nothing pending, at the round `apply` left, and no error. -/
theorem processWithin_settles {driver : Driver C} (pending : PendingStepInputs driver)
    {input : Input C} {roundOutput : StateMachine.Output C}
    (returned : (driver.apply input).2 = .ok (some roundOutput)) :
    ∃ settled outputs, (∀ extra, driver.processWithin (pendingBatches + extra) input =
        (settled, .ok outputs)) ∧ settled.pendingInputs = [] ∧
      settled.round = (driver.apply input).1.round := by
  obtain ⟨proposer, found⟩ := apply_getProposer returned
  have applied := pending.apply input
  unfold processWithin
  generalize driver.apply input = result at returned found applied ⊢
  obtain ⟨updated, outcome⟩ := result
  cases returned
  obtain ⟨lastPrevote, lastPrecommit, lifted⟩ := liftOutput_fst updated roundOutput
  have liftedFound : (updated.liftOutput roundOutput).1.getProposer = .ok proposer := by
    rw [lifted]
    exact getProposer_ok_of_same found rfl rfl
  obtain ⟨settled, outputs, stable, done, sameRound⟩ :=
    drainPending_settles pendingBatches (updated.liftOutput roundOutput).2 liftedFound
      (applied.liftOutput roundOutput) (Or.inr (StateMachine.Step.passes_le_four _))
  refine ⟨settled, outputs, fun extra => stable extra, done, ?_⟩
  rw [sameRound, lifted]
  rfl

/-- Without an output of `apply` the loop is not entered. -/
theorem processWithin_of_quiet {driver : Driver C} {input : Input C}
    (quiet : ∀ roundOutput, (driver.apply input).2 ≠ .ok (some roundOutput)) (fuel fuel' : Nat) :
    driver.processWithin fuel input = driver.processWithin fuel' input := by
  unfold processWithin
  generalize driver.apply input = result at quiet ⊢
  obtain ⟨updated, outcome⟩ := result
  cases outcome with
  | error error => rfl
  | ok output =>
      cases output with
      | none => rfl
      | some roundOutput => exact absurd rfl (quiet roundOutput)

end Loop

/-- `Driver::process` ends: its loop needs no more than `pendingBatches`
passes, after which nothing is pending, so more passes give the same result;
and when the loop is entered, it fails nowhere and no pending input it applies
moves the driver off the round `apply` left it at. -/
theorem process_terminates (driver : Driver C) (input : Input C)
    (pending : PendingStepInputs driver) :
    (∀ fuel, pendingBatches ≤ fuel → driver.processWithin fuel input = driver.process input) ∧
      ∀ roundOutput, (driver.apply input).2 = .ok (some roundOutput) →
        (driver.process input).1.pendingInputs = [] ∧
          (driver.process input).1.round = (driver.apply input).1.round ∧
          ∃ outputs, (driver.process input).2 = .ok outputs := by
  rw [process_eq_processWithin]
  constructor
  · intro fuel enough
    by_cases entered : ∃ roundOutput, (driver.apply input).2 = .ok (some roundOutput)
    · obtain ⟨roundOutput, returned⟩ := entered
      obtain ⟨settled, outputs, stable, -, -⟩ := processWithin_settles pending returned
      have more := stable (fuel - pendingBatches)
      rw [Nat.add_sub_cancel' enough] at more
      exact more.trans (stable 0).symm
    · exact processWithin_of_quiet (fun roundOutput returned => entered ⟨roundOutput, returned⟩) _ _
  · intro roundOutput returned
    obtain ⟨settled, outputs, stable, done, sameRound⟩ := processWithin_settles pending returned
    have settledRun : driver.processWithin pendingBatches input = (settled, .ok outputs) := stable 0
    rw [settledRun]
    exact ⟨done, sameRound, outputs, rfl⟩

section Reachable

theorem pendingStepInputs_new (height : C.Height) (validatorSet : ValidatorSet C)
    (address : C.Address) (thresholdParams : ThresholdParams) :
    PendingStepInputs (Driver.new height validatorSet address thresholdParams) :=
  fun _ member => (List.not_mem_nil member).elim

theorem PendingStepInputs.moveToHeight (driver : Driver C) (height : C.Height)
    (validatorSet : ValidatorSet C) : PendingStepInputs (driver.moveToHeight height validatorSet) :=
  fun _ member => (List.not_mem_nil member).elim

theorem PendingStepInputs.process {driver : Driver C} (pending : PendingStepInputs driver)
    (input : Input C) : PendingStepInputs (driver.process input).1 := by
  by_cases entered : ∃ roundOutput, (driver.apply input).2 = .ok (some roundOutput)
  · obtain ⟨roundOutput, returned⟩ := entered
    obtain ⟨settled, outputs, stable, done, -⟩ := processWithin_settles pending returned
    have settledRun : driver.processWithin pendingBatches input = (settled, .ok outputs) := stable 0
    rw [process_eq_processWithin, settledRun]
    intro _ member
    rw [done] at member
    exact (List.not_mem_nil member).elim
  · have applied := pending.apply input
    have quiet : ∀ roundOutput, (driver.apply input).2 ≠ .ok (some roundOutput) :=
      fun roundOutput returned => entered ⟨roundOutput, returned⟩
    unfold Driver.process
    generalize driver.apply input = result at applied quiet ⊢
    obtain ⟨updated, outcome⟩ := result
    cases outcome with
    | error error => exact applied
    | ok output =>
        cases output with
        | none => exact applied
        | some roundOutput => exact absurd rfl (quiet roundOutput)

/-- Every driver the calls of a height reach has only step inputs pending. -/
theorem PendingStepInputs.run (inputs : List (Input C)) :
    ∀ {driver : Driver C}, PendingStepInputs driver → PendingStepInputs (driver.run inputs).1 := by
  induction inputs with
  | nil =>
      intro driver pending
      exact pending
  | cons input rest ih =>
      intro driver pending
      have processed := pending.process input
      simp only [Driver.run]
      generalize driver.process input = result at processed ⊢
      obtain ⟨updated, outcome⟩ := result
      exact ih processed

end Reachable

/-- A fresh driver, given its first round. -/
theorem fresh_driver_process_terminates :
    let driver : Driver testContext := .new 0 fourValidators 0 .default
    let input : Input testContext := .newRound 0 (.some 0) 0
    PendingStepInputs driver ∧
      (∀ fuel, pendingBatches ≤ fuel → driver.processWithin fuel input = driver.process input) ∧
      ∀ roundOutput, (driver.apply input).2 = .ok (some roundOutput) →
        (driver.process input).1.pendingInputs = [] ∧
          (driver.process input).1.round = (driver.apply input).1.round ∧
          ∃ outputs, (driver.process input).2 = .ok outputs :=
  ⟨pendingStepInputs_new (C := testContext) 0 fourValidators 0 .default,
    process_terminates _ _ (pendingStepInputs_new (C := testContext) 0 fourValidators 0 .default)⟩

end Malachite.Driver
