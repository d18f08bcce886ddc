import Malachite.Types.Context

namespace Malachite

/-! Certificates (`certificate.rs`) and their verification against a validator
set (`SigningProviderExt` in `signing/src/ext.rs`).  The signature scheme is a
parameter `verify`: it holds of a vote, a signature and a public key when
`verify_signed_vote` returns a valid verdict; any other verdict, an error
included, leaves the signature uncounted, as in the source. -/

variable (C : Context)

structure CommitSignature where
  address : C.Address
  signature : C.Signature
deriving DecidableEq

structure CommitCertificate where
  height : C.Height
  round : Round
  valueId : C.ValueId
  commitSignatures : List (CommitSignature C)
deriving DecidableEq

structure PolkaSignature where
  address : C.Address
  signature : C.Signature
deriving DecidableEq

structure PolkaCertificate where
  height : C.Height
  round : Round
  valueId : C.ValueId
  polkaSignatures : List (PolkaSignature C)
deriving DecidableEq

structure RoundSignature where
  voteType : VoteType
  valueId : NilOrVal C.ValueId
  address : C.Address
  signature : C.Signature
deriving DecidableEq

inductive RoundCertificateType where
  | skip
  | precommit
deriving DecidableEq, Repr

structure RoundCertificate where
  height : C.Height
  round : Round
  certType : RoundCertificateType
  roundSignatures : List (RoundSignature C)
deriving DecidableEq

structure EnterRoundCertificate where
  certificate : RoundCertificate C
  enterRound : Round
deriving DecidableEq

inductive CertificateError where
  | invalidCommitSignature (signature : CommitSignature C)
  | invalidPolkaSignature (signature : PolkaSignature C)
  | invalidRoundSignature (signature : RoundSignature C)
  | unknownValidator (address : C.Address)
  | notEnoughVotingPower (signed total expected : Nat)
  | duplicateVote (address : C.Address)
  | invalidVoteType (address : C.Address)
deriving DecidableEq

variable {C}

/-- The signed votes that certify `value` of one type at one height and round. -/
def certifies (height : C.Height) (round : Round) (valueId : C.ValueId) (voteType : VoteType)
    (vote : SignedVote C) : Bool :=
  decide (vote.message.value = .val valueId) && decide (vote.message.voteType = voteType) &&
    decide (vote.message.round = round) && decide (vote.message.height = height)

def CommitCertificate.new (height : C.Height) (round : Round) (valueId : C.ValueId)
    (commits : List (SignedVote C)) : CommitCertificate C :=
  { height, round, valueId,
    commitSignatures := (commits.filter (certifies height round valueId .precommit)).map
      fun vote => ⟨vote.message.validatorAddress, vote.signature⟩ }

def PolkaCertificate.new (height : C.Height) (round : Round) (valueId : C.ValueId)
    (votes : List (SignedVote C)) : PolkaCertificate C :=
  { height, round, valueId,
    polkaSignatures := (votes.filter (certifies height round valueId .prevote)).map
      fun vote => ⟨vote.message.validatorAddress, vote.signature⟩ }

def RoundCertificate.newFromVotes (height : C.Height) (round : Round)
    (certType : RoundCertificateType) (votes : List (SignedVote C)) : RoundCertificate C :=
  { height, round, certType,
    roundSignatures := votes.map fun vote =>
      ⟨vote.message.voteType, vote.message.value, vote.message.validatorAddress, vote.signature⟩ }

def EnterRoundCertificate.newFromVotes (height : C.Height) (enterRound round : Round)
    (certType : RoundCertificateType) (votes : List (SignedVote C)) : EnterRoundCertificate C :=
  { certificate := RoundCertificate.newFromVotes height round certType votes, enterRound }

section Verify

variable (verify : Vote C → C.Signature → C.PublicKey → Bool)

def verifyCommitSignature (certificate : CommitCertificate C) (signature : CommitSignature C)
    (validator : Validator C) : Except (CertificateError C) Nat :=
  let vote := Vote.newPrecommit certificate.height certificate.round (.val certificate.valueId)
    validator.address
  if verify vote signature.signature validator.publicKey then .ok validator.votingPower
  else .error (.invalidCommitSignature signature)

def verifyPolkaSignature (certificate : PolkaCertificate C) (signature : PolkaSignature C)
    (validator : Validator C) : Except (CertificateError C) Nat :=
  let vote := Vote.newPrevote certificate.height certificate.round (.val certificate.valueId)
    validator.address
  if verify vote signature.signature validator.publicKey then .ok validator.votingPower
  else .error (.invalidPolkaSignature signature)

def verifyRoundSignature (certificate : RoundCertificate C) (signature : RoundSignature C)
    (validator : Validator C) : Except (CertificateError C) Nat :=
  let vote := match signature.voteType with
    | .prevote => Vote.newPrevote certificate.height certificate.round signature.valueId
        validator.address
    | .precommit => Vote.newPrecommit certificate.height certificate.round signature.valueId
        validator.address
  if verify vote signature.signature validator.publicKey then .ok validator.votingPower
  else .error (.invalidRoundSignature signature)

end Verify

/-- The loop shared by the three certificate checks: a validator seen before
or unknown to the set aborts, so does whatever `reject` finds, and the power of
each signature that `verifySignature` accepts is added up. -/
def signedVotingPower {σ : Type} (validatorSet : ValidatorSet C) (address : σ → C.Address)
    (reject : σ → Option (CertificateError C))
    (verifySignature : σ → Validator C → Except (CertificateError C) Nat) :
    List C.Address → Nat → List σ → Except (CertificateError C) Nat
  | _, signed, [] => .ok signed
  | seen, signed, signature :: rest =>
      if address signature ∈ seen then .error (.duplicateVote (address signature))
      else
        match validatorSet.getByAddress (address signature) with
        | none => .error (.unknownValidator (address signature))
        | some validator =>
            match reject signature with
            | some error => .error error
            | none =>
                let signed := match verifySignature signature validator with
                  | .ok power => signed + power
                  | .error _ => signed
                signedVotingPower validatorSet address reject verifySignature
                  (seen ++ [address signature]) signed rest

/-- Accept a signed voting power that meets the threshold. -/
def checkVotingPower (threshold : ThresholdParam) (validatorSet : ValidatorSet C) (signed : Nat) :
    Except (CertificateError C) Unit :=
  let total := validatorSet.totalVotingPower
  if threshold.isMet signed total then .ok ()
  else .error (.notEnoughVotingPower signed total (threshold.minExpected total))

section Verify

variable (verify : Vote C → C.Signature → C.PublicKey → Bool)

def verifyCommitCertificate (certificate : CommitCertificate C) (validatorSet : ValidatorSet C)
    (thresholds : ThresholdParams) : Except (CertificateError C) Unit := do
  let signed ← signedVotingPower validatorSet CommitSignature.address (fun _ => none)
    (verifyCommitSignature verify certificate) [] 0 certificate.commitSignatures
  checkVotingPower thresholds.quorum validatorSet signed

def verifyPolkaCertificate (certificate : PolkaCertificate C) (validatorSet : ValidatorSet C)
    (thresholds : ThresholdParams) : Except (CertificateError C) Unit := do
  let signed ← signedVotingPower validatorSet PolkaSignature.address (fun _ => none)
    (verifyPolkaSignature verify certificate) [] 0 certificate.polkaSignatures
  checkVotingPower thresholds.quorum validatorSet signed

/-- Unlike the other two checks, a prevote in a precommit certificate is
rejected, and a skip certificate needs only the honest threshold. -/
def verifyRoundCertificate (certificate : RoundCertificate C) (validatorSet : ValidatorSet C)
    (thresholds : ThresholdParams) : Except (CertificateError C) Unit := do
  let wrongType := fun signature : RoundSignature C =>
    if certificate.certType = .precommit ∧ signature.voteType = .prevote then
      some (CertificateError.invalidVoteType signature.address)
    else none
  let signed ← signedVotingPower validatorSet RoundSignature.address wrongType
    (verifyRoundSignature verify certificate) [] 0 certificate.roundSignatures
  let threshold := match certificate.certType with
    | .precommit => thresholds.quorum
    | .skip => thresholds.honest
  checkVotingPower threshold validatorSet signed

end Verify

end Malachite
