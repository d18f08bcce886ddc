import Malachite.Consensus.Decide
import Malachite.Signing.Soundness
import Malachite.VoteKeeper.Tally

namespace Malachite

/-! The certificates a node builds from its own vote records pass the checks of
`signing/src/ext.rs`, once the threshold they certify is met: the commit certificate
`decide` builds from the received precommits (`handle/decide.rs`), the polka certificate
`store_polka_certificate` stores, and the round certificates of
`store_precommit_any_round_certificate` and `store_skip_round_certificate`
(`core-driver/src/driver.rs`).

This is the converse of `certificate_checks_sound`, and the positive side of the rejected
certificates of `Driver.Certificates`: a check accepts a certificate of distinct known
validators whose signatures verify and whose power meets the threshold.  The vote keeper
weighs a value by the first vote of each validator, and records every vote it accepts, so
the validators its received votes name weigh at least what it counted (`Backed`).  A
certificate that takes every received vote of its kind names each of them; where no
validator's vote of that kind was received twice, it names each once and verifies.  The
skip certificate keeps the first vote of each validator and needs no such condition. -/

variable {C : Context}

section Loop

variable (validatorSet : ValidatorSet C) {σ : Type} (address : σ → C.Address)
  (reject : σ → Option (CertificateError C))
  (verifySignature : σ → Validator C → Except (CertificateError C) Nat)

/-- The loop shared by the checks accepts signatures of distinct known validators that it
does not reject, and adds up the power of each one whose signature verifies. -/
theorem signedVotingPower_of_verified {signatures : List σ}
    (distinct : (signatures.map address).Nodup)
    (verified : ∀ signature ∈ signatures, ∃ validator,
      validatorSet.getByAddress (address signature) = some validator ∧
        verifySignature signature validator = .ok validator.votingPower)
    (kept : ∀ signature ∈ signatures, reject signature = none) :
    ∀ (seen : List C.Address) (signed : Nat), (∀ signature ∈ signatures, address signature ∉ seen) →
      signedVotingPower validatorSet address reject verifySignature seen signed signatures =
        .ok (signed + (signatures.map fun signature => validatorSet.powerOf (address signature)).sum) := by
  induction signatures with
  | nil => simp [signedVotingPower]
  | cons signature rest ih =>
      intro seen signed unseen
      simp only [List.map_cons, List.nodup_cons] at distinct
      obtain ⟨validator, found, ok⟩ := verified signature (List.mem_cons_self ..)
      rw [signedVotingPower_cons_of_known validatorSet address reject verifySignature signed rest
        (unseen signature (List.mem_cons_self ..)) found (kept signature (List.mem_cons_self ..)), ok]
      -- the rest names neither an address seen before nor this one
      have restUnseen : ∀ later ∈ rest, address later ∉ seen ++ [address signature] := by
        intro later member named
        rcases List.mem_append.mp named with before | this
        · exact unseen later (List.mem_cons_of_mem _ member) before
        · exact distinct.1 (List.mem_singleton.mp this ▸ List.mem_map_of_mem member)
      rw [ih distinct.2 (fun later member => verified later (List.mem_cons_of_mem _ member))
        (fun later member => kept later (List.mem_cons_of_mem _ member)) _ _ restUnseen]
      simp only [List.map_cons, List.sum_cons, ValidatorSet.powerOf_of_getByAddress found,
        Except.toOption, Option.getD_some, Nat.add_assoc]

end Loop

namespace Votes

/-- The validators named by the votes among `votes` that `keep` selects. -/
def votersOf (votes : List (SignedVote C)) (keep : Vote C → Bool) : Finset C.Address :=
  ((votes.filter fun vote => keep vote.message).map fun vote => vote.message.validatorAddress).toFinset

theorem mem_votersOf {votes : List (SignedVote C)} {keep : Vote C → Bool} {address : C.Address} :
    address ∈ votersOf votes keep ↔
      ∃ vote ∈ votes, keep vote.message ∧ vote.message.validatorAddress = address := by
  simp [votersOf, and_assoc]

theorem votersOf_append_single (votes : List (SignedVote C)) (vote : SignedVote C)
    (keep : Vote C → Bool) :
    votersOf (votes ++ [vote]) keep =
      if keep vote.message then insert vote.message.validatorAddress (votersOf votes keep)
      else votersOf votes keep := by
  split
  · next kept =>
      ext address
      rw [Finset.mem_insert, mem_votersOf, mem_votersOf]
      constructor
      · rintro ⟨other, member, keeps, named⟩
        rcases List.mem_append.mp member with old | new
        · exact .inr ⟨other, old, keeps, named⟩
        · rw [List.mem_singleton.mp new] at named
          exact .inl named.symm
      · rintro (named | ⟨other, old, keeps, same⟩)
        · exact ⟨vote, List.mem_append_right _ (List.mem_singleton_self _), kept, named.symm⟩
        · exact ⟨other, List.mem_append_left _ old, keeps, same⟩
  · next dropped =>
      simp [votersOf, List.filter_append, dropped]

theorem sum_votersOf_le_append (set : ValidatorSet C) (votes : List (SignedVote C))
    (vote : SignedVote C) (keep : Vote C → Bool) :
    ∑ address ∈ votersOf votes keep, set.powerOf address ≤
      ∑ address ∈ votersOf (votes ++ [vote]) keep, set.powerOf address := by
  refine Finset.sum_le_sum_of_subset fun address member => ?_
  obtain ⟨other, otherMember, kept, named⟩ := mem_votersOf.mp member
  exact mem_votersOf.mpr ⟨other, List.mem_append_left _ otherMember, kept, named⟩

theorem VoteCount.mem_add {count : VoteCount C} {vote : Vote C} (weight : Nat) {address : C.Address}
    (counted : address ∈ count.validatorAddresses ∨ address = vote.validatorAddress) :
    address ∈ (count.add vote weight).1.validatorAddresses := by
  by_cases member : vote.validatorAddress ∈ count.validatorAddresses
  · rw [VoteCount.add_of_mem _ member]
    rcases counted with before | rfl
    · exact before
    · exact member
  · rw [VoteCount.validatorAddresses_add_of_not_mem _ member]
    rcases counted with before | rfl
    · exact List.mem_cons_of_mem _ before
    · exact List.mem_cons_self ..

theorem RoundWeights.isSome_setOnce {weights : RoundWeights C.Address} {address : C.Address}
    (weight : Nat) {wanted : C.Address}
    (held : (KeyMap.get? weights.map wanted).isSome ∨ wanted = address) :
    (KeyMap.get? (weights.setOnce address weight).map wanted).isSome := by
  unfold RoundWeights.setOnce
  cases stored : KeyMap.get? weights.map address with
  | some _ => rcases held with before | rfl
              · exact before
              · simp [stored]
  | none =>
      simp only [KeyMap.get?_insert]
      split
      · rfl
      · next other => rcases held with before | rfl
                      · exact before
                      · exact absurd rfl other

namespace PerRound

/-- A round's tallies rest on its received votes: each is of the round, of a known
validator, counted for its type and weighed; and every weight is at most the power of the
validators whose received votes it could count. -/
structure Backed (set : ValidatorSet C) (round : Round) (perRound : PerRound C) : Prop where
  round : ∀ vote ∈ perRound.receivedVotes, vote.message.round = round
  known : ∀ vote ∈ perRound.receivedVotes,
    ∃ validator, set.getByAddress vote.message.validatorAddress = some validator
  counted : ∀ vote ∈ perRound.receivedVotes,
    vote.message.validatorAddress ∈ (perRound.votes.count vote.message.voteType).validatorAddresses
  weighed : ∀ vote ∈ perRound.receivedVotes,
    (KeyMap.get? perRound.addressesWeights.map vote.message.validatorAddress).isSome
  weight : ∀ voteType value, (perRound.votes.count voteType).get value ≤
    ∑ address ∈ votersOf perRound.receivedVotes (fun vote =>
      vote.voteType = voteType ∧ vote.value = value), set.powerOf address
  sum : ∀ voteType, (perRound.votes.count voteType).sum ≤
    ∑ address ∈ votersOf perRound.receivedVotes (fun vote => vote.voteType = voteType),
      set.powerOf address
  weights : perRound.addressesWeights.sum ≤
    ∑ address ∈ votersOf perRound.receivedVotes (fun _ => true), set.powerOf address

theorem backed_new (set : ValidatorSet C) (round : Round) : (new : PerRound C).Backed set round where
  round := by simp [new]
  known := by simp [new]
  counted := by simp [new]
  weighed := by simp [new]
  weight := by
    intro voteType value
    cases voteType <;> simp [new, RoundVotes.new, RoundVotes.count, VoteCount.new, VoteCount.get,
      ValuesWeights.new, ValuesWeights.get]
  sum := by
    intro voteType
    cases voteType <;> simp [new, RoundVotes.new, RoundVotes.count, VoteCount.new, VoteCount.sum,
      ValuesWeights.new, ValuesWeights.sum, KeyMap.sumValues]
  weights := by simp [new, RoundWeights.new, RoundWeights.sum, KeyMap.sumValues]

theorem Backed.of_same {set : ValidatorSet C} {round : Round} {perRound updated : PerRound C}
    (backed : perRound.Backed set round) (votes : updated.votes = perRound.votes)
    (weights : updated.addressesWeights = perRound.addressesWeights)
    (received : updated.receivedVotes = perRound.receivedVotes) : updated.Backed set round := by
  constructor
  · rw [received]
    exact backed.round
  · rw [received]
    exact backed.known
  · rw [received, votes]
    exact backed.counted
  · rw [received, weights]
    exact backed.weighed
  · rw [received, votes]
    exact backed.weight
  · rw [received, votes]
    exact backed.sum
  · rw [received, weights]
    exact backed.weights

/-- A validator not counted for a type has no received vote of that type. -/
theorem Backed.not_mem_votersOf {set : ValidatorSet C} {round : Round} {perRound : PerRound C}
    (backed : perRound.Backed set round) {voteType : VoteType} {address : C.Address}
    (uncounted : address ∉ (perRound.votes.count voteType).validatorAddresses)
    (keep : Vote C → Bool) (ofType : ∀ vote, keep vote = true → vote.voteType = voteType) :
    address ∉ votersOf perRound.receivedVotes keep := by
  intro member
  obtain ⟨vote, received, kept, rfl⟩ := mem_votersOf.mp member
  have counted := backed.counted vote received
  rw [ofType _ kept] at counted
  exact uncounted counted

/-- Recording a vote of a known validator at its round keeps the round backed: a validator
counted for the first time is one its received votes did not name before. -/
theorem Backed.add {set : ValidatorSet C} {round : Round} {perRound recorded : PerRound C}
    (backed : perRound.Backed set round) {vote : SignedVote C} {validator : Validator C}
    (found : set.getByAddress vote.message.validatorAddress = some validator)
    (atRound : vote.message.round = round)
    (added : perRound.add vote validator.votingPower = .ok recorded) : recorded.Backed set round := by
  obtain ⟨votes, weights, received, -⟩ := add_eq_ok added
  have power := ValidatorSet.powerOf_of_getByAddress found
  constructor
  · intro other member
    rw [received] at member
    rcases List.mem_append.mp member with old | new
    · exact backed.round other old
    · rw [List.mem_singleton.mp new]
      exact atRound
  · intro other member
    rw [received] at member
    rcases List.mem_append.mp member with old | new
    · exact backed.known other old
    · rw [List.mem_singleton.mp new]
      exact ⟨validator, found⟩
  · intro other member
    rw [received] at member
    rw [votes, RoundVotes.addVote_count]
    rcases List.mem_append.mp member with old | new
    · split
      · exact VoteCount.mem_add _ (.inl (backed.counted other old))
      · exact backed.counted other old
    · rw [List.mem_singleton.mp new, if_pos rfl]
      exact VoteCount.mem_add _ (.inr rfl)
  · intro other member
    rw [received] at member
    rw [weights]
    rcases List.mem_append.mp member with old | new
    · exact RoundWeights.isSome_setOnce _ (.inl (backed.weighed other old))
    · rw [List.mem_singleton.mp new]
      exact RoundWeights.isSome_setOnce _ (.inr rfl)
  · intro voteType value
    have before := backed.weight voteType value
    have grown := sum_votersOf_le_append set perRound.receivedVotes vote
      (fun vote => decide (vote.voteType = voteType ∧ vote.value = value))
    rw [votes, RoundVotes.addVote_count, received]
    split
    · next sameType =>
        by_cases member : vote.message.validatorAddress ∈
            (perRound.votes.count voteType).validatorAddresses
        · rw [VoteCount.add_of_mem _ member]
          exact before.trans grown
        · rw [VoteCount.get_add_of_not_mem _ member]
          split
          · next sameValue =>
              -- a first vote for the value: its validator joins the voters for it
              have fresh := backed.not_mem_votersOf member
                (fun vote => decide (vote.voteType = voteType ∧ vote.value = value))
                (by simp +contextual)
              rw [votersOf_append_single, if_pos (by simp [sameType, sameValue]),
                Finset.sum_insert fresh, power, sameValue]
              omega
          · exact before.trans grown
    · exact before.trans grown
  · intro voteType
    have before := backed.sum voteType
    have grown := sum_votersOf_le_append set perRound.receivedVotes vote
      (fun vote => decide (vote.voteType = voteType))
    rw [votes, RoundVotes.addVote_count, received]
    split
    · next sameType =>
        by_cases member : vote.message.validatorAddress ∈
            (perRound.votes.count voteType).validatorAddresses
        · rw [VoteCount.add_of_mem _ member]
          exact before.trans grown
        · have fresh := backed.not_mem_votersOf member
            (fun vote => decide (vote.voteType = voteType)) (by simp)
          rw [VoteCount.sum_add_of_not_mem _ member, votersOf_append_single,
            if_pos (by simp [sameType]), Finset.sum_insert fresh, power]
          omega
    · exact before.trans grown
  · have before := backed.weights
    have grown := sum_votersOf_le_append set perRound.receivedVotes vote fun _ => true
    rw [weights, received]
    unfold RoundWeights.setOnce
    cases stored : KeyMap.get? perRound.addressesWeights.map vote.message.validatorAddress with
    | some _ => exact before.trans grown
    | none =>
        -- a validator weighed for the first time has no received vote yet
        have fresh : vote.message.validatorAddress ∉
            votersOf perRound.receivedVotes fun _ => true := by
          intro member
          obtain ⟨other, otherMember, -, same⟩ := mem_votersOf.mp member
          have weighed := backed.weighed other otherMember
          rw [same, stored] at weighed
          cases weighed
        have inserted := KeyMap.sumValues_insert perRound.addressesWeights.map
          vote.message.validatorAddress validator.votingPower
        rw [stored, Option.getD_none, Nat.add_zero] at inserted
        rw [votersOf_append_single, if_pos rfl, Finset.sum_insert fresh, power]
        simp only [RoundWeights.sum] at before ⊢
        omega

theorem Backed.emit {set : ValidatorSet C} {round : Round} {perRound : PerRound C}
    (backed : perRound.Backed set round) (output : Output C.ValueId) :
    (perRound.emit output).Backed set round :=
  backed.of_same (emit_votes ..) (emit_addressesWeights ..) (emit_receivedVotes ..)

end PerRound

namespace VoteKeeper

/-- Every round of the keeper is backed by its received votes. -/
structure Backed (set : ValidatorSet C) (params : ThresholdParams) (keeper : VoteKeeper C) :
    Prop where
  validatorSet : keeper.validatorSet = set
  thresholdParams : keeper.thresholdParams = params
  rounds : ∀ round perRound, keeper.getPerRound round = some perRound → perRound.Backed set round

section Steps

variable {set : ValidatorSet C} {params : ThresholdParams} {keeper : VoteKeeper C}

theorem backed_new (set : ValidatorSet C) (params : ThresholdParams) :
    (new set params).Backed set params where
  validatorSet := rfl
  thresholdParams := rfl
  rounds round perRound found := by simp [new, getPerRound] at found

theorem Backed.setPerRound (backed : keeper.Backed set params) (round : Round)
    {perRound : PerRound C} (stored : perRound.Backed set round) :
    (keeper.setPerRound round perRound).Backed set params where
  validatorSet := backed.validatorSet
  thresholdParams := backed.thresholdParams
  rounds wanted found found' := by
    rw [getPerRound_setPerRound] at found'
    split at found'
    · next same =>
        cases found'
        exact same ▸ stored
    · exact backed.rounds wanted found found'

theorem Backed.stored (backed : keeper.Backed set params) (round : Round) :
    ((keeper.getPerRound round).getD .new).Backed set round := by
  cases found : keeper.getPerRound round with
  | none => exact PerRound.backed_new set round
  | some perRound => exact backed.rounds round perRound found

theorem Backed.applyVote (backed : keeper.Backed set params) (vote : SignedVote C) (round : Round) :
    (keeper.applyVote vote round).1.Backed set params := by
  have opened := backed.setPerRound vote.message.round (backed.stored vote.message.round)
  rcases applyVote_keeper keeper vote round with
    same | ⟨evidence, same⟩ | ⟨validator, recorded, updated, found, added, votes, weights, received,
      same⟩
  · rw [same]
    exact opened
  · rw [same]
    exact ⟨opened.validatorSet, opened.thresholdParams, opened.rounds⟩
  · rw [backed.validatorSet] at found
    have kept := (backed.stored vote.message.round).add found rfl added
    rw [same]
    exact opened.setPerRound vote.message.round (kept.of_same votes weights received)

theorem Backed.pruneVotes (backed : keeper.Backed set params) (minRound : Round) :
    (keeper.pruneVotes minRound).Backed set params where
  validatorSet := backed.validatorSet
  thresholdParams := backed.thresholdParams
  rounds wanted perRound found := by
    rw [getPerRound_pruneVotes] at found
    split at found
    · exact backed.rounds wanted perRound found
    · cases found

theorem backed_of_reachable (reachable : keeper.Reachable set params) : keeper.Backed set params := by
  induction reachable with
  | refl => exact backed_new set params
  | tail _ step backed =>
      cases step with
      | applyVote vote round => exact backed.applyVote vote round
      | pruneVotes minRound => exact backed.pruneVotes minRound

/-- A value's quorum met at a round of a backed keeper is met by the power of the validators
whose received votes at the round are of the type and for the value. -/
theorem Backed.quorum_of_value (backed : keeper.Backed set params) {round : Round}
    {perRound : PerRound C} (found : keeper.getPerRound round = some perRound) {voteType : VoteType}
    {valueId : C.ValueId} (met : keeper.isThresholdMet round voteType (.value valueId) = true) :
    params.quorum.isMet (∑ address ∈ votersOf perRound.receivedVotes (fun vote =>
      vote.voteType = voteType ∧ vote.value = .val valueId), set.powerOf address)
      set.totalVotingPower = true := by
  simp only [isThresholdMet, found, RoundVotes.isThresholdMet_eq, VoteCount.isThresholdMet,
    totalWeight, backed.thresholdParams, backed.validatorSet] at met
  exact ThresholdParam.isMet_mono met ((backed.rounds round perRound found).weight voteType _)

/-- So is a quorum of the votes of a type for any value. -/
theorem Backed.quorum_of_any (backed : keeper.Backed set params) {round : Round}
    {perRound : PerRound C} (found : keeper.getPerRound round = some perRound) {voteType : VoteType}
    (met : keeper.isThresholdMet round voteType .any = true) :
    params.quorum.isMet (∑ address ∈ votersOf perRound.receivedVotes (fun vote =>
      vote.voteType = voteType), set.powerOf address) set.totalVotingPower = true := by
  simp only [isThresholdMet, found, RoundVotes.isThresholdMet_eq, VoteCount.isThresholdMet,
    totalWeight, backed.thresholdParams, backed.validatorSet] at met
  exact ThresholdParam.isMet_mono met ((backed.rounds round perRound found).sum voteType)

end Steps

end VoteKeeper

end Votes

section Complete

variable (verify : Vote C → C.Signature → C.PublicKey → Bool)

/-- The vote names a validator of the set whose key verifies its signature. -/
def signedBy (validatorSet : ValidatorSet C) (vote : SignedVote C) : Bool :=
  match validatorSet.getByAddress vote.message.validatorAddress with
  | some validator => verify vote.message vote.signature validator.publicKey
  | none => false

theorem signedBy_eq_true {validatorSet : ValidatorSet C} {vote : SignedVote C} :
    signedBy verify validatorSet vote = true ↔ ∃ validator,
      validatorSet.getByAddress vote.message.validatorAddress = some validator ∧
        verify vote.message vote.signature validator.publicKey = true := by
  unfold signedBy
  split
  · next validator found => simp [found]
  · next absent => simp [absent]

theorem Vote.newPrevote_eq {vote : Vote C} (prevote : vote.voteType = .prevote) :
    Vote.newPrevote vote.height vote.round vote.value vote.validatorAddress = vote := by
  obtain ⟨height, round, value, voteType, address⟩ := vote
  subst prevote
  rfl

theorem Vote.newPrecommit_eq {vote : Vote C} (precommit : vote.voteType = .precommit) :
    Vote.newPrecommit vote.height vote.round vote.value vote.validatorAddress = vote := by
  obtain ⟨height, round, value, voteType, address⟩ := vote
  subst precommit
  rfl

/-- The power of distinct validators, as the checks add it up. -/
theorem sum_powerOf_eq (validatorSet : ValidatorSet C) {votes : List (SignedVote C)}
    (distinct : (votes.map fun vote => vote.message.validatorAddress).Nodup) :
    (votes.map fun vote => validatorSet.powerOf vote.message.validatorAddress).sum =
      ∑ address ∈ (votes.map fun vote => vote.message.validatorAddress).toFinset,
        validatorSet.powerOf address := by
  rw [List.sum_toFinset _ distinct, List.map_map]
  rfl

/-- The loop of the checks over the signatures of distinct validators' votes, each accepted
by the signature check once its key verifies it, counts the power of all of them. -/
theorem signedVotingPower_of_signed (validatorSet : ValidatorSet C) {σ : Type}
    (address : σ → C.Address) (reject : σ → Option (CertificateError C))
    (verifySignature : σ → Validator C → Except (CertificateError C) Nat)
    (toSignature : SignedVote C → σ)
    (named : ∀ vote, address (toSignature vote) = vote.message.validatorAddress)
    {votes : List (SignedVote C)}
    (accepted : ∀ vote ∈ votes, ∀ validator,
      validatorSet.getByAddress vote.message.validatorAddress = some validator →
        verify vote.message vote.signature validator.publicKey = true →
          verifySignature (toSignature vote) validator = .ok validator.votingPower)
    (kept : ∀ vote ∈ votes, reject (toSignature vote) = none)
    (signed : ∀ vote ∈ votes, signedBy verify validatorSet vote = true)
    (distinct : (votes.map fun vote => vote.message.validatorAddress).Nodup) :
    signedVotingPower validatorSet address reject verifySignature [] 0 (votes.map toSignature) =
      .ok (∑ address ∈ (votes.map fun vote => vote.message.validatorAddress).toFinset,
        validatorSet.powerOf address) := by
  have addresses : (votes.map toSignature).map address =
      votes.map fun vote => vote.message.validatorAddress := by
    rw [List.map_map]
    exact List.map_congr_left fun vote _ => named vote
  have verified : ∀ signature ∈ votes.map toSignature, ∃ validator,
      validatorSet.getByAddress (address signature) = some validator ∧
        verifySignature signature validator = .ok validator.votingPower := by
    intro signature member
    obtain ⟨vote, voteMember, rfl⟩ := List.mem_map.mp member
    obtain ⟨validator, found, good⟩ := (signedBy_eq_true verify).mp (signed vote voteMember)
    rw [named]
    exact ⟨validator, found, accepted vote voteMember validator found good⟩
  have rejected : ∀ signature ∈ votes.map toSignature, reject signature = none := by
    intro signature member
    obtain ⟨vote, voteMember, rfl⟩ := List.mem_map.mp member
    exact kept vote voteMember
  rw [signedVotingPower_of_verified validatorSet address reject verifySignature
    (addresses ▸ distinct) verified rejected [] 0 (fun _ _ => List.not_mem_nil), Nat.zero_add,
    List.map_map, ← sum_powerOf_eq validatorSet distinct]
  congr 2
  exact List.map_congr_left fun vote _ => by simp [named]

/-- The check of one commit signature accepts a precommit for the certificate's value, at its
height and round, signed by the validator it names. -/
theorem verifyCommitSignature_of_signed {certificate : CommitCertificate C} {vote : SignedVote C}
    {validatorSet : ValidatorSet C} {validator : Validator C}
    (certified : certifies certificate.height certificate.round certificate.valueId .precommit vote)
    (found : validatorSet.getByAddress vote.message.validatorAddress = some validator)
    (signed : verify vote.message vote.signature validator.publicKey = true) :
    verifyCommitSignature verify certificate ⟨vote.message.validatorAddress, vote.signature⟩ validator =
      .ok validator.votingPower := by
  simp only [certifies, Bool.and_eq_true, decide_eq_true_eq] at certified
  obtain ⟨⟨⟨value, precommit⟩, round⟩, height⟩ := certified
  have rebuilt : Vote.newPrecommit certificate.height certificate.round (.val certificate.valueId)
      validator.address = vote.message := by
    rw [ValidatorSet.getByAddress_address found, ← value, ← round, ← height]
    exact Vote.newPrecommit_eq precommit
  simp [verifyCommitSignature, rebuilt, signed]

theorem verifyPolkaSignature_of_signed {certificate : PolkaCertificate C} {vote : SignedVote C}
    {validatorSet : ValidatorSet C} {validator : Validator C}
    (certified : certifies certificate.height certificate.round certificate.valueId .prevote vote)
    (found : validatorSet.getByAddress vote.message.validatorAddress = some validator)
    (signed : verify vote.message vote.signature validator.publicKey = true) :
    verifyPolkaSignature verify certificate ⟨vote.message.validatorAddress, vote.signature⟩ validator =
      .ok validator.votingPower := by
  simp only [certifies, Bool.and_eq_true, decide_eq_true_eq] at certified
  obtain ⟨⟨⟨value, prevote⟩, round⟩, height⟩ := certified
  have rebuilt : Vote.newPrevote certificate.height certificate.round (.val certificate.valueId)
      validator.address = vote.message := by
    rw [ValidatorSet.getByAddress_address found, ← value, ← round, ← height]
    exact Vote.newPrevote_eq prevote
  simp [verifyPolkaSignature, rebuilt, signed]

/-- A round signature carries its vote's type and value, so the check rebuilds a vote of
either type at the certificate's height and round. -/
theorem verifyRoundSignature_of_signed {certificate : RoundCertificate C} {vote : SignedVote C}
    {validatorSet : ValidatorSet C} {validator : Validator C}
    (height : vote.message.height = certificate.height) (round : vote.message.round = certificate.round)
    (found : validatorSet.getByAddress vote.message.validatorAddress = some validator)
    (signed : verify vote.message vote.signature validator.publicKey = true) :
    verifyRoundSignature verify certificate ⟨vote.message.voteType, vote.message.value,
      vote.message.validatorAddress, vote.signature⟩ validator = .ok validator.votingPower := by
  have named := ValidatorSet.getByAddress_address found
  cases kind : vote.message.voteType with
  | prevote =>
      have rebuilt : Vote.newPrevote certificate.height certificate.round vote.message.value
          validator.address = vote.message := by
        rw [named, ← height, ← round]
        exact Vote.newPrevote_eq kind
      simp [verifyRoundSignature, rebuilt, signed]
  | precommit =>
      have rebuilt : Vote.newPrecommit certificate.height certificate.round vote.message.value
          validator.address = vote.message := by
        rw [named, ← height, ← round]
        exact Vote.newPrecommit_eq kind
      simp [verifyRoundSignature, rebuilt, signed]

theorem checkVotingPower_of_isMet {threshold : ThresholdParam} (validatorSet : ValidatorSet C)
    {signed : Nat} (met : threshold.isMet signed validatorSet.totalVotingPower = true) :
    checkVotingPower threshold validatorSet signed = .ok () := by
  simp [checkVotingPower, met]

/-- A commit certificate of distinct validators' precommits for its value, at its height and
round, each signed by its validator, passes the check once their power meets the quorum. -/
theorem verifyCommitCertificate_of_signed (validatorSet : ValidatorSet C)
    (thresholds : ThresholdParams) (height : C.Height) (round : Round) (valueId : C.ValueId)
    {votes : List (SignedVote C)}
    (certified : ∀ vote ∈ votes, certifies height round valueId .precommit vote)
    (signed : ∀ vote ∈ votes, signedBy verify validatorSet vote = true)
    (distinct : (votes.map fun vote => vote.message.validatorAddress).Nodup)
    (met : thresholds.quorum.isMet (∑ address ∈ (votes.map fun vote => vote.message.validatorAddress).toFinset,
      validatorSet.powerOf address) validatorSet.totalVotingPower = true) :
    verifyCommitCertificate verify ⟨height, round, valueId,
      votes.map fun vote => ⟨vote.message.validatorAddress, vote.signature⟩⟩ validatorSet thresholds =
        .ok () := by
  have counted := signedVotingPower_of_signed verify validatorSet CommitSignature.address
    (fun _ => none) (verifyCommitSignature verify ⟨height, round, valueId,
      votes.map fun vote => ⟨vote.message.validatorAddress, vote.signature⟩⟩)
    (fun vote => ⟨vote.message.validatorAddress, vote.signature⟩) (fun _ => rfl)
    (fun vote member _ found good => verifyCommitSignature_of_signed verify (certified vote member)
      found good)
    (fun _ _ => rfl) signed distinct
  simp only [verifyCommitCertificate, counted, bind, Except.bind]
  exact checkVotingPower_of_isMet validatorSet met

theorem verifyPolkaCertificate_of_signed (validatorSet : ValidatorSet C)
    (thresholds : ThresholdParams) (height : C.Height) (round : Round) (valueId : C.ValueId)
    {votes : List (SignedVote C)}
    (certified : ∀ vote ∈ votes, certifies height round valueId .prevote vote)
    (signed : ∀ vote ∈ votes, signedBy verify validatorSet vote = true)
    (distinct : (votes.map fun vote => vote.message.validatorAddress).Nodup)
    (met : thresholds.quorum.isMet (∑ address ∈ (votes.map fun vote => vote.message.validatorAddress).toFinset,
      validatorSet.powerOf address) validatorSet.totalVotingPower = true) :
    verifyPolkaCertificate verify ⟨height, round, valueId,
      votes.map fun vote => ⟨vote.message.validatorAddress, vote.signature⟩⟩ validatorSet thresholds =
        .ok () := by
  have counted := signedVotingPower_of_signed verify validatorSet PolkaSignature.address
    (fun _ => none) (verifyPolkaSignature verify ⟨height, round, valueId,
      votes.map fun vote => ⟨vote.message.validatorAddress, vote.signature⟩⟩)
    (fun vote => ⟨vote.message.validatorAddress, vote.signature⟩) (fun _ => rfl)
    (fun vote member _ found good => verifyPolkaSignature_of_signed verify (certified vote member)
      found good)
    (fun _ _ => rfl) signed distinct
  simp only [verifyPolkaCertificate, counted, bind, Except.bind]
  exact checkVotingPower_of_isMet validatorSet met

/-- A skip certificate of distinct validators' votes of its height and round, each signed by its
validator, passes the check once their power meets the honest threshold. -/
theorem verifyRoundCertificate_skip_of_signed (validatorSet : ValidatorSet C)
    (thresholds : ThresholdParams) (height : C.Height) (round : Round) {votes : List (SignedVote C)}
    (atRound : ∀ vote ∈ votes, vote.message.height = height ∧ vote.message.round = round)
    (signed : ∀ vote ∈ votes, signedBy verify validatorSet vote = true)
    (distinct : (votes.map fun vote => vote.message.validatorAddress).Nodup)
    (met : thresholds.honest.isMet (∑ address ∈ (votes.map fun vote => vote.message.validatorAddress).toFinset,
      validatorSet.powerOf address) validatorSet.totalVotingPower = true) :
    verifyRoundCertificate verify (RoundCertificate.newFromVotes height round .skip votes)
      validatorSet thresholds = .ok () := by
  have counted := signedVotingPower_of_signed verify validatorSet RoundSignature.address
    (fun signature =>
      if (RoundCertificate.newFromVotes height round .skip votes).certType = .precommit ∧
          signature.voteType = .prevote then
        some (CertificateError.invalidVoteType signature.address) else none)
    (verifyRoundSignature verify (RoundCertificate.newFromVotes height round .skip votes))
    (fun vote => ⟨vote.message.voteType, vote.message.value, vote.message.validatorAddress,
      vote.signature⟩) (fun _ => rfl)
    (fun vote member _ found good => verifyRoundSignature_of_signed verify (atRound vote member).1
      (atRound vote member).2 found good)
    (fun _ _ => by simp [RoundCertificate.newFromVotes]) signed distinct
  simp only [verifyRoundCertificate]
  rw [show (RoundCertificate.newFromVotes height round .skip votes).roundSignatures =
    votes.map fun vote => ⟨vote.message.voteType, vote.message.value, vote.message.validatorAddress,
      vote.signature⟩ from rfl, counted]
  exact checkVotingPower_of_isMet validatorSet met

/-- A precommit round certificate of distinct validators' precommits of its height and round,
each signed by its validator, passes the check once their power meets the quorum. -/
theorem verifyRoundCertificate_precommit_of_signed (validatorSet : ValidatorSet C)
    (thresholds : ThresholdParams) (height : C.Height) (round : Round) {votes : List (SignedVote C)}
    (atRound : ∀ vote ∈ votes, vote.message.height = height ∧ vote.message.round = round)
    (precommits : ∀ vote ∈ votes, vote.message.voteType = .precommit)
    (signed : ∀ vote ∈ votes, signedBy verify validatorSet vote = true)
    (distinct : (votes.map fun vote => vote.message.validatorAddress).Nodup)
    (met : thresholds.quorum.isMet (∑ address ∈ (votes.map fun vote => vote.message.validatorAddress).toFinset,
      validatorSet.powerOf address) validatorSet.totalVotingPower = true) :
    verifyRoundCertificate verify (RoundCertificate.newFromVotes height round .precommit votes)
      validatorSet thresholds = .ok () := by
  have counted := signedVotingPower_of_signed verify validatorSet RoundSignature.address
    (fun signature =>
      if (RoundCertificate.newFromVotes height round .precommit votes).certType = .precommit ∧
          signature.voteType = .prevote then
        some (CertificateError.invalidVoteType signature.address) else none)
    (verifyRoundSignature verify (RoundCertificate.newFromVotes height round .precommit votes))
    (fun vote => ⟨vote.message.voteType, vote.message.value, vote.message.validatorAddress,
      vote.signature⟩) (fun _ => rfl)
    (fun vote member _ found good => verifyRoundSignature_of_signed verify (atRound vote member).1
      (atRound vote member).2 found good)
    (fun vote member => by simp [precommits vote member]) signed distinct
  simp only [verifyRoundCertificate]
  rw [show (RoundCertificate.newFromVotes height round .precommit votes).roundSignatures =
    votes.map fun vote => ⟨vote.message.voteType, vote.message.value, vote.message.validatorAddress,
      vote.signature⟩ from rfl, counted]
  exact checkVotingPower_of_isMet validatorSet met

end Complete

namespace Driver

/-- The second driver has the first one's validator set and threshold parameters, and a vote
keeper that calls of the vote keeper take the first one's to. -/
structure VotesFollow (driver driver' : Driver C) : Prop where
  validatorSet : driver'.validatorSet = driver.validatorSet
  thresholdParams : driver'.thresholdParams = driver.thresholdParams
  voteKeeper : Relation.ReflTransGen Votes.VoteKeeper.Step driver.voteKeeper driver'.voteKeeper

theorem VotesFollow.refl (driver : Driver C) : VotesFollow driver driver :=
  ⟨rfl, rfl, .refl⟩

theorem VotesFollow.trans {driver driver' driver'' : Driver C} (first : VotesFollow driver driver')
    (second : VotesFollow driver' driver'') : VotesFollow driver driver'' :=
  ⟨second.validatorSet.trans first.validatorSet, second.thresholdParams.trans first.thresholdParams,
    first.voteKeeper.trans second.voteKeeper⟩

theorem votesFollow_enterRoundState (driver : Driver C) (inputRound : Round)
    (previousStep : StateMachine.Step) (roundState : StateMachine.State C) :
    VotesFollow driver (driver.enterRoundState inputRound previousStep roundState) := by
  rw [enterRoundState_eq]
  exact ⟨rfl, rfl, .refl⟩

theorem votesFollow_applyInput (driver : Driver C) (inputRound : Round)
    (input : StateMachine.Input C) : VotesFollow driver (driver.applyInput inputRound input).1 := by
  have reset : VotesFollow driver { driver with roundState := .default } := ⟨rfl, rfl, .refl⟩
  unfold applyInput
  dsimp only
  split
  · exact reset
  · exact reset.trans (votesFollow_enterRoundState ..)

theorem votesFollow_setLastVoteCast (driver : Driver C) (vote : Vote C) :
    VotesFollow driver (driver.setLastVoteCast vote) := by
  unfold setLastVoteCast
  split
  · split
    · exact ⟨rfl, rfl, .refl⟩
    · exact ⟨rfl, rfl, .refl⟩
  · exact .refl driver

theorem votesFollow_liftOutput (driver : Driver C) (output : StateMachine.Output C) :
    VotesFollow driver (driver.liftOutput output).1 := by
  cases output with
  | vote vote =>
      -- a vote is recorded as cast or dropped, whatever decides whether it may be cast
      have cast : ∀ canVote : Bool, VotesFollow driver
          (if canVote then (driver.setLastVoteCast vote, [Output.vote vote]) else (driver, [])).1 := by
        intro canVote
        cases canVote
        · exact .refl driver
        · exact votesFollow_setLastVoteCast driver vote
      dsimp only [liftOutput, liftVoteOutput]
      split
      · exact .refl driver
      · split
        · exact cast _
        · exact cast _
  | newRound | proposal | scheduleTimeout | getValueAndScheduleTimeout | decision =>
      exact .refl driver

theorem votesFollow_storeAndMultiplexProposal (driver : Driver C) (proposal : SignedProposal C)
    (validity : Validity) :
    VotesFollow driver (driver.storeAndMultiplexProposal proposal validity).1 :=
  ⟨rfl, rfl, .refl⟩

theorem votesFollow_storeAndMultiplexCommitCertificate (driver : Driver C)
    (certificate : CommitCertificate C) :
    VotesFollow driver (driver.storeAndMultiplexCommitCertificate certificate).1 := by
  rw [storeAndMultiplexCommitCertificate_fst]
  exact ⟨rfl, rfl, .refl⟩

theorem votesFollow_storeAndMultiplexPolkaCertificate (driver : Driver C)
    (certificate : PolkaCertificate C) :
    VotesFollow driver (driver.storeAndMultiplexPolkaCertificate certificate).1 := by
  obtain ⟨polkaCertificates, added⟩ := addPolkaCertificate_eq driver certificate
  rw [storeAndMultiplexPolkaCertificate_fst, added]
  exact ⟨rfl, rfl, .refl⟩

theorem votesFollow_storeThresholdCertificate (driver : Driver C)
    (output : Votes.Output C.ValueId) (voteRound thisRound : Round) :
    VotesFollow driver (driver.storeThresholdCertificate output voteRound thisRound) := by
  obtain ⟨polkaCertificates, roundCertificate, stored⟩ :=
    storeThresholdCertificate_eq driver output voteRound thisRound
  rw [stored]
  exact ⟨rfl, rfl, .refl⟩

/-- Applying a vote is the one call that changes the vote keeper, by one of its steps. -/
theorem votesFollow_applyVote (driver : Driver C) (vote : SignedVote C) :
    VotesFollow driver (driver.applyVote vote).1 := by
  unfold applyVote
  split
  · exact .refl driver
  · split
    · exact .refl driver
    · dsimp only
      cases applied : driver.voteKeeper.applyVote vote driver.round with
      | mk voteKeeper output =>
          have step := Votes.VoteKeeper.Step.applyVote driver.voteKeeper vote driver.round
          rw [applied] at step
          have stepped : VotesFollow driver { driver with voteKeeper } := ⟨rfl, rfl, .single step⟩
          cases output with
          | none => exact stepped
          | some output =>
              dsimp only
              refine stepped.trans ((votesFollow_storeThresholdCertificate _ output vote.message.round
                driver.round).trans ?_)
              split
              · exact .refl _
              · exact votesFollow_applyInput ..

theorem votesFollow_apply (driver : Driver C) (input : Input C) :
    VotesFollow driver (driver.apply input).1 := by
  cases input with
  | commitCertificate certificate =>
      have stored := votesFollow_storeAndMultiplexCommitCertificate driver certificate
      simp only [apply, applyCommitCertificate]
      split
      · exact .refl driver
      · split
        · next updated roundInput result =>
            rw [result] at stored
            exact stored.trans (votesFollow_applyInput ..)
        · next updated result =>
            rw [result] at stored
            exact stored
  | polkaCertificate certificate =>
      have stored := votesFollow_storeAndMultiplexPolkaCertificate driver certificate
      simp only [apply, applyPolkaCertificate]
      split
      · exact .refl driver
      · split
        · next updated inputRound roundInput result =>
            rw [result] at stored
            exact stored.trans (votesFollow_applyInput ..)
        · next updated result =>
            rw [result] at stored
            exact stored
  | newRound height round proposer =>
      simp only [apply, applyNewRound]
      refine VotesFollow.trans ?_ (votesFollow_applyInput _ round (.newRound round))
      exact ⟨rfl, rfl, .refl⟩
  | proposeValue round value => exact votesFollow_applyInput ..
  | proposal proposal validity =>
      have stored := votesFollow_storeAndMultiplexProposal driver proposal validity
      simp only [apply, applyProposal]
      split
      · exact .refl driver
      · split
        · next updated roundInput result =>
            rw [result] at stored
            exact stored.trans (votesFollow_applyInput ..)
        · next updated result =>
            rw [result] at stored
            exact stored
  | vote vote => exact votesFollow_applyVote driver vote
  | timeoutElapsed timeout =>
      simp only [apply, applyTimeout]
      split
      · exact votesFollow_applyInput ..
      · exact votesFollow_applyInput ..
      · exact votesFollow_applyInput ..
      · exact .refl driver

theorem votesFollow_applyPendingBatch (batch : List (Round × StateMachine.Input C)) :
    ∀ (driver : Driver C) (outputs : List (Output C)),
      VotesFollow driver (driver.applyPendingBatch outputs batch).1 := by
  induction batch with
  | nil =>
      intro driver outputs
      exact .refl driver
  | cons entry rest ih =>
      intro driver outputs
      obtain ⟨round, input⟩ := entry
      have applied := votesFollow_applyInput driver round input
      simp only [applyPendingBatch]
      split
      · next updated error result =>
          rw [result] at applied
          exact applied
      · next updated result =>
          rw [result] at applied
          exact applied.trans (ih updated outputs)
      · next updated output result =>
          rw [result] at applied
          have lifted := votesFollow_liftOutput updated output
          generalize updated.liftOutput output = pair at lifted ⊢
          obtain ⟨liftedDriver, emitted⟩ := pair
          exact applied.trans (lifted.trans (ih liftedDriver _))

theorem votesFollow_drainPending (fuel : Nat) :
    ∀ (driver : Driver C) (outputs : List (Output C)),
      VotesFollow driver (drainPending fuel driver outputs).1 := by
  induction fuel with
  | zero =>
      intro driver outputs
      exact .refl driver
  | succ fuel ih =>
      intro driver outputs
      have cleared : VotesFollow driver { driver with pendingInputs := [] } := ⟨rfl, rfl, .refl⟩
      have batch := cleared.trans
        (votesFollow_applyPendingBatch driver.pendingInputs { driver with pendingInputs := [] } outputs)
      simp only [drainPending]
      split
      · exact .refl driver
      · split
        · next updated error result =>
            rw [result] at batch
            exact batch
        · next updated emitted result =>
            rw [result] at batch
            exact batch.trans (ih updated emitted)

theorem votesFollow_process (driver : Driver C) (input : Input C) :
    VotesFollow driver (driver.process input).1 := by
  have applied := votesFollow_apply driver input
  unfold process
  split
  · next updated error result =>
      rw [result] at applied
      exact applied
  · next updated result =>
      rw [result] at applied
      exact applied
  · next updated roundOutput result =>
      rw [result] at applied
      have lifted := votesFollow_liftOutput updated roundOutput
      generalize updated.liftOutput roundOutput = pair at lifted ⊢
      obtain ⟨liftedDriver, outputs⟩ := pair
      exact applied.trans (lifted.trans (votesFollow_drainPending ..))

/-- The driver's vote keeper is one that calls of the vote keeper reach from a new keeper of
the driver's validator set and threshold parameters. -/
def KeeperReachable (driver : Driver C) : Prop :=
  driver.voteKeeper.Reachable driver.validatorSet driver.thresholdParams

theorem KeeperReachable.follow {driver driver' : Driver C} (reachable : driver.KeeperReachable)
    (follows : VotesFollow driver driver') : driver'.KeeperReachable := by
  unfold KeeperReachable Votes.VoteKeeper.Reachable at reachable ⊢
  rw [follows.validatorSet, follows.thresholdParams]
  exact reachable.trans follows.voteKeeper

/-- The drivers a node reaches through its calls (`core-consensus`): a new driver, then inputs
processed, the votes and polka certificates of earlier rounds pruned, and moves to a new
height. -/
inductive Reached : Driver C → Prop
  | new (height : C.Height) (validatorSet : ValidatorSet C) (address : C.Address)
      (thresholdParams : ThresholdParams) :
      Reached (Driver.new height validatorSet address thresholdParams)
  | process {driver : Driver C} (input : Input C) : Reached driver → Reached (driver.process input).1
  | pruneVotesAndCertificates {driver : Driver C} (minRound : Round) :
      Reached driver → Reached (driver.pruneVotesAndCertificates minRound)
  | moveToHeight {driver : Driver C} (height : C.Height) (validatorSet : ValidatorSet C) :
      Reached driver → Reached (driver.moveToHeight height validatorSet)

theorem Reached.keeperReachable {driver : Driver C} (reached : Reached driver) :
    driver.KeeperReachable := by
  induction reached with
  | new => exact .refl
  | process input _ reachable => exact reachable.follow (votesFollow_process _ input)
  | pruneVotesAndCertificates minRound _ reachable =>
      exact reachable.follow ⟨rfl, rfl, .single (.pruneVotes _ minRound)⟩
  | moveToHeight => exact .refl

theorem Reached.run {driver : Driver C} (reached : Reached driver) (inputs : List (Input C)) :
    Reached (driver.run inputs).1 := by
  induction inputs generalizing driver with
  | nil => exact reached
  | cons input rest ih =>
      have processed := Reached.process input reached
      simp only [Driver.run]
      generalize driver.process input = result at processed ⊢
      obtain ⟨updated, outcome⟩ := result
      have later := ih processed
      generalize updated.run rest = ran at later ⊢
      obtain ⟨final, outputs⟩ := ran
      exact later

/-- In every driver a node reaches, each round's tallies rest on the votes received at the
round, all from validators of the driver's set: the weight of a value, of a vote type and of
the round's voters is at most the power of the validators whose received votes it counts. -/
theorem reached_tallies_backed {driver : Driver C} (reached : Reached driver) :
    driver.voteKeeper.Backed driver.validatorSet driver.thresholdParams :=
  Votes.VoteKeeper.backed_of_reachable reached.keeperReachable

/-- Node 0 of four validators of power one, after a proposal for 5 at round 0, and the
prevotes and then the precommits of validators 1, 2 and 3 for it. -/
def precommittedDriver : Driver testContext :=
  ((Driver.new 0 fourValidators 0 .default : Driver testContext).run
    [.newRound 0 (.some 0) 1, .proposal ⟨⟨0, .some 0, 5, .nil, 1⟩, 1⟩ .valid,
      .vote ⟨Vote.newPrevote 0 (.some 0) (.val 5) 1, 1⟩,
      .vote ⟨Vote.newPrevote 0 (.some 0) (.val 5) 2, 2⟩,
      .vote ⟨Vote.newPrevote 0 (.some 0) (.val 5) 3, 3⟩,
      .vote ⟨Vote.newPrecommit 0 (.some 0) (.val 5) 1, 1⟩,
      .vote ⟨Vote.newPrecommit 0 (.some 0) (.val 5) 2, 2⟩,
      .vote ⟨Vote.newPrecommit 0 (.some 0) (.val 5) 3, 3⟩]).1

theorem precommittedDriver_reached : Reached precommittedDriver :=
  (Reached.new (0 : testContext.Height) fourValidators 0 .default).run _

theorem precommittedDriver_tallies_backed :
    Reached precommittedDriver ∧
      precommittedDriver.voteKeeper.Backed precommittedDriver.validatorSet
        precommittedDriver.thresholdParams :=
  ⟨precommittedDriver_reached, reached_tallies_backed precommittedDriver_reached⟩

/-- The round of the votes of `precommittedDriver`. -/
def precommittedRound : Votes.PerRound testContext :=
  (precommittedDriver.voteKeeper.getPerRound (.some 0)).getD .new

theorem precommittedRound_found :
    precommittedDriver.voteKeeper.getPerRound (.some 0) = some precommittedRound := by
  have present : (precommittedDriver.voteKeeper.getPerRound (.some 0)).isSome := by decide
  unfold precommittedRound
  cases found : precommittedDriver.voteKeeper.getPerRound (.some 0) with
  | none =>
      rw [found] at present
      cases present
  | some perRound => rfl

/-- A signature of the test context is valid when it is the signer's public key. -/
def keyVerify : Vote testContext → Nat → Nat → Bool :=
  fun _ signature publicKey => decide (signature = publicKey)

theorem precommittedRound_signed : ∀ vote ∈ precommittedRound.receivedVotes,
    vote.message.height = precommittedDriver.height ∧
      signedBy keyVerify precommittedDriver.validatorSet vote := by
  decide

theorem firstVotePerAddress_sublist (seen : List C.Address) (votes : List (SignedVote C)) :
    (firstVotePerAddress seen votes).Sublist votes := by
  induction votes generalizing seen with
  | nil => exact .slnil
  | cons vote rest ih =>
      unfold firstVotePerAddress
      split
      · exact (ih seen).cons vote
      · exact (ih _).cons_cons vote

/-- The first vote of each validator names every validator the votes name, except those seen. -/
theorem mem_firstVotePerAddress (seen : List C.Address) (votes : List (SignedVote C))
    (address : C.Address) :
    address ∈ (firstVotePerAddress seen votes).map (fun vote => vote.message.validatorAddress) ↔
      address ∉ seen ∧ address ∈ votes.map fun vote => vote.message.validatorAddress := by
  induction votes generalizing seen with
  | nil => simp [firstVotePerAddress]
  | cons vote rest ih =>
      unfold firstVotePerAddress
      by_cases same : address = vote.message.validatorAddress
      · subst same
        split
        · next again => simp [ih, again]
        · next fresh => simp [fresh]
      · split
        · rw [ih]
          simp [same]
        · rw [List.map_cons, List.mem_cons, ih]
          simp [same]

section Certificates

variable (verify : Vote C → C.Signature → C.PublicKey → Bool)

/-- A received vote of the driver's height for a value certifies the value at the round it was
received for, since a reachable keeper files each vote under its own round. -/
theorem certifies_of_received {driver : Driver C} (reachable : driver.KeeperReachable)
    {voteRound : Round} {perRound : Votes.PerRound C}
    (found : driver.voteKeeper.getPerRound voteRound = some perRound)
    (signed : ∀ vote ∈ perRound.receivedVotes,
      vote.message.height = driver.height ∧ signedBy verify driver.validatorSet vote)
    {voteType : VoteType} {valueId : C.ValueId} {vote : SignedVote C}
    (member : vote ∈ perRound.receivedVotes.filter fun vote =>
      decide (vote.message.voteType = voteType) && decide (vote.message.value = .val valueId)) :
    certifies driver.height voteRound valueId voteType vote := by
  have atRound :=
    ((Votes.VoteKeeper.backed_of_reachable reachable).rounds voteRound perRound found).round
  obtain ⟨received, kept⟩ := List.mem_filter.mp member
  simp only [Bool.and_eq_true, decide_eq_true_eq] at kept
  simp [certifies, kept.1, kept.2, atRound vote received, (signed vote received).1]

/-- With a prevote quorum for a value at a round, received votes of the driver's height signed
by their validators, and no validator's prevote for the value received twice, the polka
certificate the driver stores verifies. -/
theorem storePolkaCertificate_verified {driver : Driver C} (reachable : driver.KeeperReachable)
    {voteRound : Round} {valueId : C.ValueId} {perRound : Votes.PerRound C}
    (found : driver.voteKeeper.getPerRound voteRound = some perRound)
    (signed : ∀ vote ∈ perRound.receivedVotes,
      vote.message.height = driver.height ∧ signedBy verify driver.validatorSet vote)
    (polka : driver.voteKeeper.isThresholdMet voteRound .prevote (.value valueId))
    (once : ((perRound.receivedVotes.filter fun vote => decide (vote.message.voteType = .prevote) &&
      decide (vote.message.value = .val valueId)).map fun vote => vote.message.validatorAddress).Nodup) :
    ∃ certificate, (driver.storePolkaCertificate voteRound valueId).polkaCertificates =
        driver.polkaCertificates ++ [certificate] ∧
      verifyPolkaCertificate verify certificate driver.validatorSet driver.thresholdParams = .ok () := by
  have backed := Votes.VoteKeeper.backed_of_reachable reachable
  refine ⟨⟨driver.height, voteRound, valueId,
    (perRound.receivedVotes.filter fun vote => decide (vote.message.voteType = .prevote) &&
      decide (vote.message.value = .val valueId)).map fun vote =>
        ⟨vote.message.validatorAddress, vote.signature⟩⟩, by simp [storePolkaCertificate, found], ?_⟩
  apply verifyPolkaCertificate_of_signed verify
  · intro vote member
    exact certifies_of_received verify reachable found signed member
  · intro vote member
    exact (signed vote (List.mem_filter.mp member).1).2
  · exact once
  · simpa [Votes.votersOf, Bool.decide_and] using backed.quorum_of_value found polka

theorem precommittedDriver_polka_verified :
    ∃ certificate, (precommittedDriver.storePolkaCertificate (.some 0) 5).polkaCertificates =
        precommittedDriver.polkaCertificates ++ [certificate] ∧
      verifyPolkaCertificate keyVerify certificate precommittedDriver.validatorSet
        precommittedDriver.thresholdParams = .ok () :=
  storePolkaCertificate_verified keyVerify precommittedDriver_reached.keeperReachable
    precommittedRound_found precommittedRound_signed (by decide) (by decide)

/-- With a precommit quorum at a round, received votes of the driver's height signed by their
validators, and no validator's precommit received twice, the certificate to enter the next
round verifies. -/
theorem storePrecommitAnyRoundCertificate_verified {driver : Driver C}
    (reachable : driver.KeeperReachable) {voteRound : Round} {perRound : Votes.PerRound C}
    (found : driver.voteKeeper.getPerRound voteRound = some perRound)
    (signed : ∀ vote ∈ perRound.receivedVotes,
      vote.message.height = driver.height ∧ signedBy verify driver.validatorSet vote)
    (precommitAny : driver.voteKeeper.isThresholdMet voteRound .precommit .any)
    (once : ((perRound.receivedVotes.filter fun vote => vote.message.voteType = .precommit).map
      fun vote => vote.message.validatorAddress).Nodup) :
    ∃ certificate, (driver.storePrecommitAnyRoundCertificate voteRound).roundCertificate =
        some certificate ∧
      verifyRoundCertificate verify certificate.certificate driver.validatorSet
        driver.thresholdParams = .ok () := by
  have backed := Votes.VoteKeeper.backed_of_reachable reachable
  have atRound := (backed.rounds voteRound perRound found).round
  refine ⟨EnterRoundCertificate.newFromVotes driver.height voteRound.increment voteRound .precommit
    (perRound.receivedVotes.filter fun vote => vote.message.voteType = .precommit),
    by simp [storePrecommitAnyRoundCertificate, found], ?_⟩
  apply verifyRoundCertificate_precommit_of_signed verify
  · intro vote member
    have received := (List.mem_filter.mp member).1
    exact ⟨(signed vote received).1, atRound vote received⟩
  · intro vote member
    simpa using (List.mem_filter.mp member).2
  · intro vote member
    exact (signed vote (List.mem_filter.mp member).1).2
  · exact once
  · simpa [Votes.votersOf] using backed.quorum_of_any found precommitAny

theorem precommittedDriver_precommit_round_verified :
    ∃ certificate, (precommittedDriver.storePrecommitAnyRoundCertificate (.some 0)).roundCertificate =
        some certificate ∧
      verifyRoundCertificate keyVerify certificate.certificate precommittedDriver.validatorSet
        precommittedDriver.thresholdParams = .ok () :=
  storePrecommitAnyRoundCertificate_verified keyVerify precommittedDriver_reached.keeperReachable
    precommittedRound_found precommittedRound_signed (by decide) (by decide)

/-- With the round's voters past the honest threshold, and received votes of the driver's
height signed by their validators, the skip certificate verifies: it keeps the first vote of
each validator, so no condition on repeated votes is needed. -/
theorem storeSkipRoundCertificate_verified {driver : Driver C}
    (reachable : driver.KeeperReachable) {voteRound : Round} {perRound : Votes.PerRound C}
    (found : driver.voteKeeper.getPerRound voteRound = some perRound)
    (signed : ∀ vote ∈ perRound.receivedVotes,
      vote.message.height = driver.height ∧ signedBy verify driver.validatorSet vote)
    (skip : driver.thresholdParams.honest.isMet perRound.addressesWeights.sum
      driver.validatorSet.totalVotingPower) :
    ∃ certificate, (driver.storeSkipRoundCertificate voteRound).roundCertificate = some certificate ∧
      verifyRoundCertificate verify certificate.certificate driver.validatorSet
        driver.thresholdParams = .ok () := by
  have backed := Votes.VoteKeeper.backed_of_reachable reachable
  have roundBacked := backed.rounds voteRound perRound found
  have kept := firstVotePerAddress_sublist [] perRound.receivedVotes
  refine ⟨EnterRoundCertificate.newFromVotes driver.height voteRound voteRound .skip
    (firstVotePerAddress [] perRound.receivedVotes), by simp [storeSkipRoundCertificate, found], ?_⟩
  apply verifyRoundCertificate_skip_of_signed verify
  · intro vote member
    have received := kept.subset member
    exact ⟨(signed vote received).1, roundBacked.round vote received⟩
  · intro vote member
    exact (signed vote (kept.subset member)).2
  · exact (firstVotePerAddress_distinct [] perRound.receivedVotes).1
  · -- the first votes name every validator the round's votes name
    have voters : ((firstVotePerAddress [] perRound.receivedVotes).map
        fun vote => vote.message.validatorAddress).toFinset =
        Votes.votersOf perRound.receivedVotes fun _ => true := by
      ext address
      simp [mem_firstVotePerAddress, Votes.votersOf]
    rw [voters]
    exact ThresholdParam.isMet_mono skip roundBacked.weights

theorem precommittedDriver_skip_round_verified :
    ∃ certificate, (precommittedDriver.storeSkipRoundCertificate (.some 0)).roundCertificate =
        some certificate ∧
      verifyRoundCertificate keyVerify certificate.certificate precommittedDriver.validatorSet
        precommittedDriver.thresholdParams = .ok () :=
  storeSkipRoundCertificate_verified keyVerify precommittedDriver_reached.keeperReachable
    precommittedRound_found precommittedRound_signed (by decide)

end Certificates

end Driver

namespace Consensus

/-- With no commit certificate stored for the decision, a precommit quorum for the decided value
at its round, received votes of the driver's height signed by their validators, and no
validator's precommit for the value received twice, the certificate that `decide` builds from
the received precommits verifies. -/
theorem decisionCertificate_verified (verify : Vote C → C.Signature → C.PublicKey → Bool)
    {driver : Driver C} (reachable : driver.KeeperReachable)
    {decision : StateMachine.RoundValue C.Value} {perRound : Votes.PerRound C}
    (decided : driver.roundState.decision = some decision)
    (uncertified : driver.commitCertificate decision.round (C.id decision.value) = none)
    (found : driver.voteKeeper.getPerRound decision.round = some perRound)
    (signed : ∀ vote ∈ perRound.receivedVotes,
      vote.message.height = driver.height ∧ signedBy verify driver.validatorSet vote)
    (quorum : driver.voteKeeper.isThresholdMet decision.round .precommit
      (.value (C.id decision.value)))
    (once : ((restorePrecommits driver decision.round decision.value).map
      fun vote => vote.message.validatorAddress).Nodup) :
    ∃ certificate, decisionCertificate driver = some certificate ∧
      verifyCommitCertificate verify certificate driver.validatorSet driver.thresholdParams =
        .ok () := by
  have backed := Votes.VoteKeeper.backed_of_reachable reachable
  have restored : restorePrecommits driver decision.round decision.value =
      perRound.receivedVotes.filter fun vote => decide (vote.message.voteType = .precommit) &&
        decide (vote.message.value = .val (C.id decision.value)) := by
    simp [restorePrecommits, found]
  -- every restored precommit certifies the decision, so the certificate keeps them all
  have certified : ∀ vote ∈ restorePrecommits driver decision.round decision.value,
      certifies driver.height decision.round (C.id decision.value) .precommit vote := by
    intro vote member
    rw [restored] at member
    exact Driver.certifies_of_received verify reachable found signed member
  refine ⟨CommitCertificate.new driver.height decision.round (C.id decision.value)
    (restorePrecommits driver decision.round decision.value),
    by simp [decisionCertificate, decided, uncertified], ?_⟩
  rw [CommitCertificate.new, List.filter_eq_self.mpr certified]
  apply verifyCommitCertificate_of_signed verify
  · exact certified
  · intro vote member
    rw [restored] at member
    exact (signed vote (List.mem_filter.mp member).1).2
  · exact once
  · rw [restored]
    simpa [Votes.votersOf, Bool.decide_and] using backed.quorum_of_value found quorum

theorem precommittedDriver_decision_verified :
    ∃ certificate, decisionCertificate Driver.precommittedDriver = some certificate ∧
      verifyCommitCertificate Driver.keyVerify certificate Driver.precommittedDriver.validatorSet
        Driver.precommittedDriver.thresholdParams = .ok () :=
  decisionCertificate_verified Driver.keyVerify Driver.precommittedDriver_reached.keeperReachable
    (show Driver.precommittedDriver.roundState.decision = some ⟨5, .some 0⟩ by decide) (by decide)
    Driver.precommittedRound_found Driver.precommittedRound_signed (by decide) (by decide)

end Consensus

end Malachite
