import Malachite.Types.Certificate
import Malachite.Lib.Weights

namespace Malachite

/-! What the certificate checks of `signing/src/ext.rs` guarantee.

The three checks share one loop over the signatures, `signedVotingPower`.  It
aborts on an address seen before, on an unknown validator and, in a precommit
round certificate, on a prevote; a signature that does not verify is skipped,
not rejected.  An accepted certificate names distinct validators of the set,
and those whose signature verifies hold more than the threshold.  A repeated
address is reported as a duplicate vote only when no earlier signature aborts
the loop first.  Over a set with distinct addresses the running sum never
passes the total voting power, so the source's unchecked addition cannot
overflow. -/

variable {C : Context}

/-- The validators of the set that one of `signatures` names with a signature
that verifies. -/
def ValidatorSet.signers {σ : Type} (set : ValidatorSet C) (address : σ → C.Address)
    (verifySignature : σ → Validator C → Except (CertificateError C) Nat)
    (signatures : List σ) : List (Validator C) :=
  set.validators.filter fun validator =>
    signatures.any fun signature =>
      decide (address signature = validator.address) && (verifySignature signature validator).isOk

section Loop

variable (validatorSet : ValidatorSet C) {σ : Type} (address : σ → C.Address)
  (reject : σ → Option (CertificateError C))
  (verifySignature : σ → Validator C → Except (CertificateError C) Nat)

/-- The validator a signature names, when its signature verifies. -/
def verifiedSigner (signature : σ) : Option (Validator C) :=
  (validatorSet.getByAddress (address signature)).filter fun validator =>
    (verifySignature signature validator).isOk

theorem signedVotingPower_cons_of_mem {seen : List C.Address} (signed : Nat) {signature : σ}
    (rest : List σ) (again : address signature ∈ seen) :
    signedVotingPower validatorSet address reject verifySignature seen signed (signature :: rest) =
      .error (.duplicateVote (address signature)) := by
  simp [signedVotingPower, again]

theorem signedVotingPower_cons_of_known {seen : List C.Address} (signed : Nat) {signature : σ}
    (rest : List σ) {validator : Validator C} (fresh : address signature ∉ seen)
    (found : validatorSet.getByAddress (address signature) = some validator)
    (kept : reject signature = none) :
    signedVotingPower validatorSet address reject verifySignature seen signed (signature :: rest) =
      signedVotingPower validatorSet address reject verifySignature (seen ++ [address signature])
        (signed + ((verifySignature signature validator).toOption.getD 0)) rest := by
  simp only [signedVotingPower, fresh, found, kept, if_false]
  cases verifySignature signature validator <;> rfl

/-- The loop over a prefix hands its seen addresses and its sum to the rest. -/
theorem signedVotingPower_append (pre post : List σ) :
    ∀ (seen : List C.Address) (signed : Nat),
      signedVotingPower validatorSet address reject verifySignature seen signed (pre ++ post) =
        (signedVotingPower validatorSet address reject verifySignature seen signed pre).bind
          fun signed => signedVotingPower validatorSet address reject verifySignature
            (seen ++ pre.map address) signed post := by
  induction pre with
  | nil => simp [signedVotingPower, Except.bind]
  | cons signature rest ih =>
      intro seen signed
      by_cases again : address signature ∈ seen
      · simp only [List.cons_append, signedVotingPower_cons_of_mem _ _ _ _ _ _ again]
        rfl
      cases found : validatorSet.getByAddress (address signature) with
      | none => simp [signedVotingPower, again, found, Except.bind]
      | some validator =>
          cases kept : reject signature with
          | some error => simp [signedVotingPower, again, found, kept, Except.bind]
          | none =>
              simp only [List.cons_append,
                signedVotingPower_cons_of_known _ _ _ _ _ _ again found kept, ih,
                List.map_cons, List.append_assoc, List.nil_append]

variable {verifySignature}

section Powered

-- Each of the three signature checks adds the voting power of the validator.
variable (powered : ∀ signature validator power,
  verifySignature signature validator = .ok power → power = validator.votingPower)
include powered

/-- An accepting loop has seen each address once, each of a known validator,
and has added the power of each validator whose signature verifies. -/
theorem signedVotingPower_eq_ok {signatures : List σ} :
    ∀ {seen : List C.Address} {signed total : Nat},
      signedVotingPower validatorSet address reject verifySignature seen signed signatures =
        .ok total →
      (∀ signature ∈ signatures, address signature ∉ seen) ∧
        (signatures.map address).Nodup ∧
        (∀ signature ∈ signatures, (validatorSet.getByAddress (address signature)).isSome) ∧
        total = signed + ((signatures.filterMap
          (verifiedSigner validatorSet address verifySignature)).map Validator.votingPower).sum := by
  induction signatures with
  | nil =>
      intro seen signed total accepted
      simp only [signedVotingPower, Except.ok.injEq] at accepted
      simp [accepted]
  | cons signature rest ih =>
      intro seen signed total accepted
      by_cases again : address signature ∈ seen
      · rw [signedVotingPower_cons_of_mem _ _ _ _ _ _ again] at accepted
        cases accepted
      cases found : validatorSet.getByAddress (address signature) with
      | none =>
          simp [signedVotingPower, again, found] at accepted
      | some validator =>
          cases kept : reject signature with
          | some error =>
              simp [signedVotingPower, again, found, kept] at accepted
          | none =>
              rw [signedVotingPower_cons_of_known _ _ _ _ _ _ again found kept] at accepted
              obtain ⟨fresh, distinct, known, sum⟩ := ih accepted
              refine ⟨?_, ?_, ?_, ?_⟩
              · intro other member
                rcases List.mem_cons.mp member with rfl | later
                · exact again
                · exact fun seenBefore => fresh other later (List.mem_append_left _ seenBefore)
              · refine List.nodup_cons.mpr ⟨fun named => ?_, distinct⟩
                obtain ⟨other, later, same⟩ := List.mem_map.mp named
                exact fresh other later (by simp [same])
              · intro other member
                rcases List.mem_cons.mp member with rfl | later
                · simp [found]
                · exact known other later
              · cases verified : verifySignature signature validator with
                | ok power =>
                    have signer : verifiedSigner validatorSet address verifySignature signature =
                        some validator := by
                      simp [verifiedSigner, found, verified, Except.isOk, Except.toBool]
                    rw [verified] at sum
                    simp only [List.filterMap_cons, signer, List.map_cons, List.sum_cons, sum,
                      Except.toOption, Option.getD_some, powered signature validator power verified]
                    omega
                | error failure =>
                    have skipped : verifiedSigner validatorSet address verifySignature signature =
                        none := by
                      simp [verifiedSigner, found, verified, Except.isOk, Except.toBool]
                    rw [verified] at sum
                    simp only [List.filterMap_cons, skipped, sum, Except.toOption, Option.getD_none,
                      Nat.add_zero]

end Powered

/-- A repeated address is reported as a duplicate vote when every signature
before the repeat names a validator of the set and is not rejected. -/
theorem signedVotingPower_duplicateVote (signature : σ) (post : List σ) (pre : List σ) :
    ∀ {seen : List C.Address} (signed : Nat), address signature ∈ seen ++ pre.map address →
      (∀ earlier ∈ pre, (validatorSet.getByAddress (address earlier)).isSome ∧
        reject earlier = none) →
      ∃ repeated, signedVotingPower validatorSet address reject verifySignature seen signed
        (pre ++ signature :: post) = .error (.duplicateVote repeated) := by
  induction pre with
  | nil =>
      intro seen signed again _
      exact ⟨_, signedVotingPower_cons_of_mem _ _ _ _ _ _ (by simpa using again)⟩
  | cons earlier rest ih =>
      intro seen signed again accepted
      by_cases seenBefore : address earlier ∈ seen
      · exact ⟨_, signedVotingPower_cons_of_mem _ _ _ _ _ _ seenBefore⟩
      obtain ⟨known, kept⟩ := accepted earlier List.mem_cons_self
      obtain ⟨validator, found⟩ := Option.isSome_iff_exists.mp known
      rw [List.cons_append, signedVotingPower_cons_of_known _ _ _ _ _ _ seenBefore found kept]
      exact ih _ (by simpa using again) fun other member => accepted other (List.mem_cons_of_mem _ member)

end Loop

section Signers

variable {validatorSet : ValidatorSet C} {σ : Type} {address : σ → C.Address}
  {verifySignature : σ → Validator C → Except (CertificateError C) Nat}

theorem verifiedSigner_address {signature : σ} {validator : Validator C}
    (signer : verifiedSigner validatorSet address verifySignature signature = some validator) :
    validator.address = address signature :=
  ValidatorSet.getByAddress_address (Option.filter_eq_some_iff.mp signer).1

/-- Signatures of distinct addresses name distinct signers. -/
theorem nodup_filterMap_verifiedSigner {signatures : List σ}
    (distinct : (signatures.map address).Nodup) :
    (signatures.filterMap (verifiedSigner validatorSet address verifySignature)).Nodup := by
  induction signatures with
  | nil => exact List.nodup_nil
  | cons signature rest ih =>
      obtain ⟨fresh, distinctRest⟩ := List.nodup_cons.mp distinct
      rw [List.filterMap_cons]
      cases signer : verifiedSigner validatorSet address verifySignature signature with
      | none => exact ih distinctRest
      | some validator =>
          refine List.nodup_cons.mpr ⟨fun member => ?_, ih distinctRest⟩
          obtain ⟨other, later, otherSigner⟩ := List.mem_filterMap.mp member
          have same : address other = address signature := by
            rw [← verifiedSigner_address otherSigner, verifiedSigner_address signer]
          exact fresh (same ▸ List.mem_map_of_mem later)

/-- The validators the loop adds up are the signers of the set, in another order. -/
theorem filterMap_verifiedSigner_perm (distinctSet : validatorSet.AddressesDistinct)
    {signatures : List σ} (distinct : (signatures.map address).Nodup) :
    (signatures.filterMap (verifiedSigner validatorSet address verifySignature)).Perm
      (validatorSet.signers address verifySignature signatures) := by
  have validatorsDistinct : validatorSet.validators.Nodup := distinctSet.of_map _
  refine (List.perm_ext_iff_of_nodup (nodup_filterMap_verifiedSigner distinct)
    (validatorsDistinct.filter _)).mpr fun validator => ?_
  simp only [List.mem_filterMap, List.mem_filter, List.any_eq_true,
    Bool.and_eq_true, decide_eq_true_eq]
  constructor
  · rintro ⟨signature, member, signer⟩
    obtain ⟨found, verified⟩ := Option.filter_eq_some_iff.mp signer
    exact ⟨ValidatorSet.getByAddress_mem found, signature, member,
      (ValidatorSet.getByAddress_address found).symm, verified⟩
  · rintro ⟨inSet, signature, member, named, verified⟩
    have found := ValidatorSet.getByAddress_of_mem distinctSet inSet
    rw [← named] at found
    exact ⟨signature, member, Option.filter_eq_some_iff.mpr ⟨found, verified⟩⟩

/-- Distinct signers weigh at most the whole set. -/
theorem signers_power_le_total (signatures : List σ) :
    ((validatorSet.signers address verifySignature signatures).map Validator.votingPower).sum ≤
      validatorSet.totalVotingPower :=
  (List.filter_sublist.map _).sum_le_sum fun _ _ => Nat.zero_le _

end Signers

section Sound

variable (validatorSet : ValidatorSet C) {σ : Type} (address : σ → C.Address)
  (reject : σ → Option (CertificateError C))
  (verifySignature : σ → Validator C → Except (CertificateError C) Nat)

/-- What a certificate check that runs the shared loop over `signatures` and
then compares the sum with `threshold` guarantees. -/
structure SoundCheck (threshold : ThresholdParam) (signatures : List σ)
    (check : Except (CertificateError C) Unit) : Prop where
  /-- Accepted: distinct validators of the set, and those whose signature
  verifies hold more than the threshold. -/
  accepted : check = .ok () →
    (signatures.map address).Nodup ∧
      (∀ signature ∈ signatures, (validatorSet.getByAddress (address signature)).isSome) ∧
      threshold.isMet ((validatorSet.signers address verifySignature signatures).map
        Validator.votingPower).sum validatorSet.totalVotingPower
  /-- A repeat after signatures that all pass is a duplicate vote. -/
  duplicate : ∀ pre signature post, signatures = pre ++ signature :: post →
    address signature ∈ pre.map address →
    (∀ earlier ∈ pre, (validatorSet.getByAddress (address earlier)).isSome ∧
      reject earlier = none) →
    ∃ repeated, check = .error (.duplicateVote repeated)
  /-- After any prefix the loop carries a sum of at most the total power. -/
  running : ∀ pre post, signatures = pre ++ post → ∀ signed,
    signedVotingPower validatorSet address reject verifySignature [] 0 pre = .ok signed →
    signed ≤ validatorSet.totalVotingPower ∧
      signedVotingPower validatorSet address reject verifySignature [] 0 signatures =
        signedVotingPower validatorSet address reject verifySignature (pre.map address) signed post

variable {validatorSet address reject verifySignature}

theorem soundCheck_of_loop (distinctSet : validatorSet.AddressesDistinct)
    (powered : ∀ signature validator power,
      verifySignature signature validator = .ok power → power = validator.votingPower)
    (threshold : ThresholdParam) (signatures : List σ) :
    SoundCheck validatorSet address reject verifySignature threshold signatures
      ((signedVotingPower validatorSet address reject verifySignature [] 0 signatures).bind
        (checkVotingPower threshold validatorSet)) := by
  -- The sum an accepting loop returns is the signers' power, in another order.
  have summed : ∀ {pre : List σ} {signed : Nat},
      signedVotingPower validatorSet address reject verifySignature [] 0 pre = .ok signed →
      (pre.map address).Nodup ∧
        (∀ signature ∈ pre, (validatorSet.getByAddress (address signature)).isSome) ∧
        signed = ((validatorSet.signers address verifySignature pre).map
          Validator.votingPower).sum := by
    intro pre signed accepted
    obtain ⟨_, distinct, known, sum⟩ :=
      signedVotingPower_eq_ok validatorSet address reject powered accepted
    refine ⟨distinct, known, ?_⟩
    rw [sum, Nat.zero_add]
    exact ((filterMap_verifiedSigner_perm distinctSet distinct).map _).sum_eq
  refine ⟨?_, ?_, ?_⟩
  · intro checked
    cases loop : signedVotingPower validatorSet address reject verifySignature [] 0 signatures with
    | error error => simp [loop, Except.bind] at checked
    | ok signed =>
        obtain ⟨distinct, known, sum⟩ := summed loop
        simp only [loop, Except.bind, checkVotingPower] at checked
        split at checked
        · exact ⟨distinct, known, sum ▸ by assumption⟩
        · cases checked
  · intro pre signature post split again accepted
    have seenBefore : address signature ∈ ([] : List C.Address) ++ pre.map address := again
    obtain ⟨repeated, failed⟩ := signedVotingPower_duplicateVote validatorSet address reject
      signature post pre 0 seenBefore accepted
    exact ⟨repeated, by rw [split, failed]; rfl⟩
  · intro pre post split signed accepted
    obtain ⟨_, _, sum⟩ := summed accepted
    refine ⟨sum ▸ signers_power_le_total pre, ?_⟩
    rw [split, signedVotingPower_append, accepted]
    rfl

end Sound

section Verify

variable (verify : Vote C → C.Signature → C.PublicKey → Bool)

theorem verifyCommitSignature_power (certificate : CommitCertificate C)
    (signature : CommitSignature C) (validator : Validator C) (power : Nat)
    (verified : verifyCommitSignature verify certificate signature validator = .ok power) :
    power = validator.votingPower := by
  simp only [verifyCommitSignature] at verified
  -- the failed signature check returns an error, which `split_ifs` discards
  split_ifs at verified
  exact (Except.ok.inj verified).symm

theorem verifyPolkaSignature_power (certificate : PolkaCertificate C)
    (signature : PolkaSignature C) (validator : Validator C) (power : Nat)
    (verified : verifyPolkaSignature verify certificate signature validator = .ok power) :
    power = validator.votingPower := by
  simp only [verifyPolkaSignature] at verified
  -- the failed signature check returns an error, which `split_ifs` discards
  split_ifs at verified
  exact (Except.ok.inj verified).symm

theorem verifyRoundSignature_power (certificate : RoundCertificate C)
    (signature : RoundSignature C) (validator : Validator C) (power : Nat)
    (verified : verifyRoundSignature verify certificate signature validator = .ok power) :
    power = validator.votingPower := by
  simp only [verifyRoundSignature] at verified
  -- the failed signature check returns an error, which `split_ifs` discards
  split_ifs at verified
  exact (Except.ok.inj verified).symm

/-- Over a validator set with distinct addresses, each of the three checks is
sound: the round check with its rejection of prevotes in a precommit
certificate and its threshold chosen by the certificate's type. -/
theorem certificate_checks_sound (validatorSet : ValidatorSet C) (thresholds : ThresholdParams)
    (distinct : validatorSet.AddressesDistinct) :
    (∀ certificate : CommitCertificate C,
      SoundCheck validatorSet CommitSignature.address (fun _ => none)
        (verifyCommitSignature verify certificate) thresholds.quorum certificate.commitSignatures
        (verifyCommitCertificate verify certificate validatorSet thresholds)) ∧
    (∀ certificate : PolkaCertificate C,
      SoundCheck validatorSet PolkaSignature.address (fun _ => none)
        (verifyPolkaSignature verify certificate) thresholds.quorum certificate.polkaSignatures
        (verifyPolkaCertificate verify certificate validatorSet thresholds)) ∧
    (∀ certificate : RoundCertificate C,
      SoundCheck validatorSet RoundSignature.address
        (fun signature =>
          if certificate.certType = .precommit ∧ signature.voteType = .prevote then
            some (CertificateError.invalidVoteType signature.address)
          else none)
        (verifyRoundSignature verify certificate)
        (match certificate.certType with
          | .precommit => thresholds.quorum
          | .skip => thresholds.honest)
        certificate.roundSignatures
        (verifyRoundCertificate verify certificate validatorSet thresholds)) := by
  refine ⟨fun certificate => ?_, fun certificate => ?_, fun certificate => ?_⟩
  · exact soundCheck_of_loop distinct (verifyCommitSignature_power verify certificate) _ _
  · exact soundCheck_of_loop distinct (verifyPolkaSignature_power verify certificate) _ _
  · exact soundCheck_of_loop distinct (verifyRoundSignature_power verify certificate) _ _

end Verify

/-- The four validators of the test context have distinct addresses, so the
commit check is sound on a certificate with three of their signatures. -/
theorem fourValidators_commit_check_sound :
    let certificate : CommitCertificate testContext := ⟨0, .some 0, 5, [⟨1, 0⟩, ⟨2, 0⟩, ⟨3, 0⟩]⟩
    fourValidators.AddressesDistinct ∧
      SoundCheck fourValidators CommitSignature.address (fun _ => none)
        (verifyCommitSignature (fun _ _ _ => true) certificate) ThresholdParams.default.quorum
        certificate.commitSignatures
        (verifyCommitCertificate (fun _ _ _ => true) certificate fourValidators .default) :=
  ⟨by decide,
    (certificate_checks_sound (fun _ _ _ => true) fourValidators .default (by decide)).1 _⟩

/-- A commit certificate that names validator 1 twice, after a signature of
the unknown address 9: the check reports the unknown validator, not the
duplicate vote. -/
theorem duplicate_behind_unknown_validator :
    let certificate : CommitCertificate testContext := ⟨0, .some 0, 5, [⟨9, 0⟩, ⟨1, 0⟩, ⟨1, 0⟩]⟩
    ¬(certificate.commitSignatures.map CommitSignature.address).Nodup ∧
      verifyCommitCertificate (fun _ _ _ => true) certificate fourValidators .default =
        .error (.unknownValidator 9) := by
  decide

end Malachite
