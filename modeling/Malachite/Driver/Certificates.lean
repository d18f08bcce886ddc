import Malachite.Driver.Process

namespace Malachite

/-! The certificates a driver builds from its own vote records, against the
checks of `certificate.rs`.  A check rejects a certificate that names a
validator twice.  The skip certificate keeps the first vote of each validator;
the polka certificate takes every recorded prevote for its value, and the vote
keeper records a repeated vote again. -/

variable {C : Context}

/-- A prevote re-delivered to the vote keeper is kept twice among the round's
received votes. -/
theorem repeated_vote_received_twice :
    let keeper : Votes.VoteKeeper testContext := .new fourValidators .default
    let vote : SignedVote testContext := ⟨Vote.newPrevote 0 (.some 0) (.val 5) 1, 1⟩
    (((keeper.applyVote vote (.some 0)).1.applyVote vote (.some 0)).1.getPerRound
      (.some 0)).map Votes.PerRound.receivedVotes = some [vote, vote] := by
  decide

/-- The first vote of each validator names each validator once, and none
already seen. -/
theorem firstVotePerAddress_distinct (seen : List C.Address) (votes : List (SignedVote C)) :
    ((Driver.firstVotePerAddress seen votes).map fun vote => vote.message.validatorAddress).Nodup ∧
      ∀ vote ∈ Driver.firstVotePerAddress seen votes, vote.message.validatorAddress ∉ seen := by
  induction votes generalizing seen with
  | nil => simp [Driver.firstVotePerAddress]
  | cons vote rest ih =>
      unfold Driver.firstVotePerAddress
      by_cases again : vote.message.validatorAddress ∈ seen
      · rw [if_pos again]
        exact ih seen
      · rw [if_neg again]
        obtain ⟨distinct, fresh⟩ := ih (vote.message.validatorAddress :: seen)
        refine ⟨List.nodup_cons.mpr ⟨?_, distinct⟩, ?_⟩
        · intro named
          obtain ⟨later, member, same⟩ := List.mem_map.mp named
          exact fresh later member (by simp [same])
        · intro other member
          rcases List.mem_cons.mp member with rfl | later
          · exact again
          · exact fun seenBefore => fresh other later (List.mem_cons_of_mem _ seenBefore)

namespace Driver

/-- The prevote of validator 1 delivered twice before the quorum: the polka
certificate the driver stores is rejected even with every signature good. -/
theorem repeated_prevote_polka_certificate_rejected :
    ((Driver.new 0 fourValidators 0 .default : Driver testContext).run
      [.newRound 0 (.some 0) 1,
        .vote ⟨Vote.newPrevote 0 (.some 0) (.val 5) 1, 1⟩,
        .vote ⟨Vote.newPrevote 0 (.some 0) (.val 5) 1, 1⟩,
        .vote ⟨Vote.newPrevote 0 (.some 0) (.val 5) 2, 2⟩,
        .vote ⟨Vote.newPrevote 0 (.some 0) (.val 5) 3, 3⟩]).1.polkaCertificates.map
      (fun certificate =>
        verifyPolkaCertificate (fun _ _ _ => true) certificate fourValidators .default) =
      [.error (.duplicateVote 1)] := by
  decide

/-- With powers 1, 1, 1 and 4, the prevotes of validators 1 and 3 for value 5
at round 10 are a polka, but the vote keeper reports a skip to round 10 in its
place, so no polka certificate is stored.  The node enters round 10, prevotes
the proposal for 5, finds the polka on its change of step, and locks on 5 and
precommits it there with no polka certificate for it. -/
theorem valid_value_without_polka_certificate :
    let run := (Driver.new 0 ⟨[⟨0, 0, 1⟩, ⟨1, 1, 1⟩, ⟨2, 2, 1⟩, ⟨3, 3, 4⟩]⟩ 0 .default :
        Driver testContext).run
      [.newRound 0 (.some 0) 1,
        .vote ⟨Vote.newPrevote 0 (.some 10) (.val 5) 1, 1⟩,
        .vote ⟨Vote.newPrevote 0 (.some 10) (.val 5) 3, 3⟩,
        .newRound 0 (.some 10) 1, .proposal ⟨⟨0, .some 10, 5, .nil, 1⟩, 1⟩ .valid]
    run.1.roundState.valid = some ⟨5, .some 10⟩ ∧
      (.vote (Vote.newPrecommit 0 (.some 10) (.val 5) 0) : Output testContext) ∈ run.2 ∧
      run.1.polkaCertificates = [] := by
  decide

end Driver

end Malachite
