import Malachite.Driver.Certificates

namespace Malachite.Consensus

/-! What the consensus core does with a decision of the driver.  `decide`
(`core-consensus/src/handle/decide.rs`) takes the stored commit certificate
for the decided round and value, or builds one from the precommits the vote
keeper received (`State::restore_precommits`), and asserts that it verifies.
The votes of a round certificate reach the driver one by one
(`on_round_certificate` in `handle/liveness.rs`), without the check
`on_vote` makes that the vote keeper does not hold the vote yet. -/

variable {C : Context}

/-- The votes `on_round_certificate` applies to the driver, in order. -/
def roundCertificateVotes (certificate : RoundCertificate C) : List (SignedVote C) :=
  certificate.roundSignatures.map fun signature =>
    let message := match signature.voteType with
      | .prevote => Vote.newPrevote certificate.height certificate.round signature.valueId
          signature.address
      | .precommit => Vote.newPrecommit certificate.height certificate.round signature.valueId
          signature.address
    ⟨message, signature.signature⟩

/-- The precommits for the value among the votes received at the round. -/
def restorePrecommits (driver : Driver C) (round : Round) (value : C.Value) :
    List (SignedVote C) :=
  match driver.voteKeeper.getPerRound round with
  | some perRound => perRound.receivedVotes.filter fun vote =>
      decide (vote.message.voteType = .precommit) && decide (vote.message.value = .val (C.id value))
  | none => []

/-- The certificate `decide` checks for the decision of the round state;
`none` where it fails with `DecisionNotFound`. -/
def decisionCertificate (driver : Driver C) : Option (CommitCertificate C) :=
  driver.roundState.decision.map fun decision =>
    match driver.commitCertificate decision.round (C.id decision.value) with
    | some certificate => certificate
    | none => CommitCertificate.new driver.height decision.round (C.id decision.value)
        (restorePrecommits driver decision.round decision.value)

/-- Node 0 receives the precommits of 1 and 2 for 5 at round 0, then a
precommit round certificate of round 0 with the precommits of 1, 2 and 3 for
5, which verifies.  Its votes are applied again, the third completes a quorum
and the node decides 5; the certificate `decide` builds from the received
precommits names validator 1 twice and is rejected. -/
theorem decision_certificate_duplicate_after_round_certificate :
    let certificate : RoundCertificate testContext :=
      ⟨0, .some 0, .precommit,
        [⟨.precommit, .val 5, 1, 1⟩, ⟨.precommit, .val 5, 2, 2⟩, ⟨.precommit, .val 5, 3, 3⟩]⟩
    let run := (Driver.new 0 fourValidators 0 .default : Driver testContext).run
      ([.newRound 0 (.some 0) 1, .proposal ⟨⟨0, .some 0, 5, .nil, 1⟩, 1⟩ .valid,
        .vote ⟨Vote.newPrecommit 0 (.some 0) (.val 5) 1, 1⟩,
        .vote ⟨Vote.newPrecommit 0 (.some 0) (.val 5) 2, 2⟩] ++
        (roundCertificateVotes certificate).map .vote)
    verifyRoundCertificate (fun _ _ _ => true) certificate fourValidators .default = .ok () ∧
      (.decide (.some 0) ⟨0, .some 0, 5, .nil, 1⟩ : Driver.Output testContext) ∈ run.2 ∧
      (decisionCertificate run.1).map
          (verifyCommitCertificate (fun _ _ _ => true) · fourValidators .default) =
        some (.error (.duplicateVote 1)) := by
  decide

end Malachite.Consensus
