import Malachite.Driver.Errors

namespace Malachite

/-! The evidence the multiplexer takes for a polka at a proposal's proof-of-lock
round.  The state machine releases a lock for a proposal whose proof-of-lock
round is at or above the lock (L28-L29), and relies on the multiplexer to send
`ProposalAndPolkaPrevious` only with a polka for the proposed value there.  The
multiplexer accepts any stored polka certificate of that round, whatever its
value. -/

variable {C : Context}

namespace Driver

/-- Any polka certificate of the proposal's own round makes a valid proposal of
the current round, once past the propose step, a proposal with a polka in the
current round. -/
theorem multiplexProposal_current_of_polkaCertificate (driver : Driver C) (proposal : Proposal C)
    {certificate : PolkaCertificate C} (stored : certificate ∈ driver.polkaCertificates)
    (atRound : certificate.round = proposal.round) (started : proposal.round ≠ .nil)
    (current : driver.roundState.round = proposal.round)
    (voting : StateMachine.Step.prevote ≤ driver.roundState.step)
    (uncertified : driver.commitCertificate proposal.round (C.id proposal.value) = none)
    (noQuorum : driver.voteKeeper.isThresholdMet proposal.round .precommit
      (.value (C.id proposal.value)) = false) :
    driver.multiplexProposal proposal .valid = some (.proposalAndPolkaCurrent proposal) := by
  have forCurrent : (driver.polkaCertificates.find? fun certificate =>
      certificate.round = proposal.round).isSome := by
    rw [List.find?_isSome]
    exact ⟨certificate, stored, by simp [atRound]⟩
  unfold multiplexProposal
  simp [started, forCurrent, current, voting, uncertified, noQuorum, Validity.isValid]

/-- Node 1 sees a polka for value 5 at round 0 and precommits it.  The
proposer equivocates with value 7 at round 0: the multiplexer takes the polka
certificate for 5 as a polka for 7, and the node makes 7 its valid value. -/
theorem polka_current_for_other_value :
    let run := (Driver.new 0 fourValidators 1 .default : Driver testContext).run
        [.newRound 0 (.some 0) 0, .proposal ⟨⟨0, .some 0, 5, .nil, 0⟩, 0⟩ .valid,
          .vote ⟨Vote.newPrevote 0 (.some 0) (.val 5) 0, 0⟩,
          .vote ⟨Vote.newPrevote 0 (.some 0) (.val 5) 1, 1⟩,
          .vote ⟨Vote.newPrevote 0 (.some 0) (.val 5) 2, 2⟩]
    let equivocated : SignedProposal testContext := ⟨⟨0, .some 0, 7, .nil, 0⟩, 0⟩
    (run.1.storeAndMultiplexProposal equivocated .valid).2 =
        some (.proposalAndPolkaCurrent equivocated.message) ∧
      (∀ certificate ∈ run.1.polkaCertificates, certificate.valueId ≠ 7) ∧
      run.1.voteKeeper.isThresholdMet (.some 0) .prevote (.value 7) = false ∧
      (run.1.process (.proposal equivocated .valid)).1.roundState.valid = some ⟨7, .some 0⟩ := by
  intro run equivocated
  -- the one stored certificate, for 5, is of the equivocated proposal's round
  obtain ⟨certificate, stored, atRound⟩ :
      ∃ certificate ∈ run.1.polkaCertificates, certificate.round = equivocated.message.round := by
    decide
  refine ⟨?_, by decide⟩
  exact multiplexProposal_current_of_polkaCertificate _ equivocated.message stored atRound
    (by decide) (by decide) (by decide) (by decide) (by decide)

/-- Node 1 precommits value 5 at round 0, locking on it, and at round 1
prevotes value 7 on a proposal with proof-of-lock round 0, where 7 has no polka:
neither its vote keeper nor its polka certificates hold one. -/
theorem prevote_against_lock_without_polka :
    let run := (Driver.new 0 fourValidators 1 .default : Driver testContext).run
        [.newRound 0 (.some 0) 0, .proposal ⟨⟨0, .some 0, 5, .nil, 0⟩, 0⟩ .valid,
          .vote ⟨Vote.newPrevote 0 (.some 0) (.val 5) 0, 0⟩,
          .vote ⟨Vote.newPrevote 0 (.some 0) (.val 5) 1, 1⟩,
          .vote ⟨Vote.newPrevote 0 (.some 0) (.val 5) 2, 2⟩,
          .vote ⟨Vote.newPrecommit 0 (.some 0) (.val 5) 1, 1⟩,
          .vote ⟨Vote.newPrecommit 0 (.some 0) (.val 5) 2, 2⟩,
          .vote ⟨Vote.newPrecommit 0 (.some 0) .nil 3, 3⟩,
          .timeoutElapsed (Timeout.precommit (.some 0)),
          .newRound 0 (.some 1) 3, .proposal ⟨⟨0, .some 1, 7, .some 0, 3⟩, 3⟩ .valid]
    (.vote (Vote.newPrecommit 0 (.some 0) (.val 5) 1) : Output testContext) ∈ run.2 ∧
      (.vote (Vote.newPrevote 0 (.some 1) (.val 7) 1) : Output testContext) ∈ run.2 ∧
      (∀ certificate ∈ run.1.polkaCertificates, certificate.valueId ≠ 7) ∧
      run.1.voteKeeper.isThresholdMet (.some 0) .prevote (.value 7) = false := by
  decide

/-- Two decisions at one height with one faulty validator of four, all of
power 1.  Validator 0 proposes 5 at round 0 and decides it on the precommits of
1 and 2.  Validators 1 and 2 miss the precommit of 0 and count the nil
precommit of the faulty 3 instead, time out into round 1, where 3 proposes 7
with proof-of-lock round 0.  Both prevote 7 on their polka certificate for 5,
and decide 7 with the votes of 3.  Every vote of a correct validator that
another one receives is among its own outputs. -/
theorem agreement_violated :
    ((Driver.new 0 fourValidators 0 .default : Driver testContext).run
        [.newRound 0 (.some 0) 0, .proposeValue (.some 0) 5,
          .proposal ⟨⟨0, .some 0, 5, .nil, 0⟩, 0⟩ .valid,
          .vote ⟨Vote.newPrevote 0 (.some 0) (.val 5) 0, 0⟩,
          .vote ⟨Vote.newPrevote 0 (.some 0) (.val 5) 1, 1⟩,
          .vote ⟨Vote.newPrevote 0 (.some 0) (.val 5) 2, 2⟩,
          .vote ⟨Vote.newPrecommit 0 (.some 0) (.val 5) 0, 0⟩,
          .vote ⟨Vote.newPrecommit 0 (.some 0) (.val 5) 1, 1⟩,
          .vote ⟨Vote.newPrecommit 0 (.some 0) (.val 5) 2, 2⟩]).2 =
      [.scheduleTimeout (Timeout.propose (.some 0)),
        .getValue 0 (.some 0) (Timeout.propose (.some 0)),
        .propose ⟨0, .some 0, 5, .nil, 0⟩,
        .vote (Vote.newPrevote 0 (.some 0) (.val 5) 0),
        .vote (Vote.newPrecommit 0 (.some 0) (.val 5) 0),
        .decide (.some 0) ⟨0, .some 0, 5, .nil, 0⟩] ∧
    ∀ address ∈ [1, 2],
      ((Driver.new 0 fourValidators address .default : Driver testContext).run
        [.newRound 0 (.some 0) 0, .proposal ⟨⟨0, .some 0, 5, .nil, 0⟩, 0⟩ .valid,
          .vote ⟨Vote.newPrevote 0 (.some 0) (.val 5) 0, 0⟩,
          .vote ⟨Vote.newPrevote 0 (.some 0) (.val 5) 1, 1⟩,
          .vote ⟨Vote.newPrevote 0 (.some 0) (.val 5) 2, 2⟩,
          .vote ⟨Vote.newPrecommit 0 (.some 0) (.val 5) 1, 1⟩,
          .vote ⟨Vote.newPrecommit 0 (.some 0) (.val 5) 2, 2⟩,
          .vote ⟨Vote.newPrecommit 0 (.some 0) .nil 3, 3⟩,
          .timeoutElapsed (Timeout.precommit (.some 0)),
          .newRound 0 (.some 1) 3, .proposal ⟨⟨0, .some 1, 7, .some 0, 3⟩, 3⟩ .valid,
          .vote ⟨Vote.newPrevote 0 (.some 1) (.val 7) 1, 1⟩,
          .vote ⟨Vote.newPrevote 0 (.some 1) (.val 7) 2, 2⟩,
          .vote ⟨Vote.newPrevote 0 (.some 1) (.val 7) 3, 3⟩,
          .vote ⟨Vote.newPrecommit 0 (.some 1) (.val 7) 1, 1⟩,
          .vote ⟨Vote.newPrecommit 0 (.some 1) (.val 7) 2, 2⟩,
          .vote ⟨Vote.newPrecommit 0 (.some 1) (.val 7) 3, 3⟩]).2 =
        [.scheduleTimeout (Timeout.propose (.some 0)),
          .vote (Vote.newPrevote 0 (.some 0) (.val 5) address),
          .vote (Vote.newPrecommit 0 (.some 0) (.val 5) address),
          .scheduleTimeout (Timeout.precommit (.some 0)),
          .newRound 0 (.some 1),
          .scheduleTimeout (Timeout.propose (.some 1)),
          .vote (Vote.newPrevote 0 (.some 1) (.val 7) address),
          .vote (Vote.newPrecommit 0 (.some 1) (.val 7) address),
          .decide (.some 1) ⟨0, .some 1, 7, .some 0, 3⟩] := by
  decide

end Driver

end Malachite
