import Malachite.VoteKeeper.Keeper

namespace Malachite.Proposals

/-! The proposal keeper of the driver (`proposal_keeper.rs`): the proposals of
each round with their validity, and evidence of equivocating proposers.  The
source panics when a round receives proposals from two validators; the model
records them like any other pair of distinct proposals. -/

variable {C : Context}

variable (C) in
structure PerRound where
  proposals : List (SignedProposal C × Validity)
deriving DecidableEq

variable (C) in
inductive RecordProposalError where
  | conflictingProposal (existing conflicting : SignedProposal C)

namespace PerRound

def new : PerRound C := ⟨[]⟩

def getFirstProposalAndValidity (perRound : PerRound C) (valueId : C.ValueId) :
    Option (SignedProposal C × Validity) :=
  perRound.proposals.find? fun entry => C.id entry.1.message.value = valueId

/-- Store a proposal once; once a round holds two distinct proposals, each
further one is reported against the first.  The source pushes and then tests
the length, which is the same as matching on the proposals held before. -/
def add (perRound : PerRound C) (proposal : SignedProposal C) (validity : Validity) :
    PerRound C × Except (RecordProposalError C) Unit :=
  if perRound.proposals.any (fun entry => entry.1 = proposal) then (perRound, .ok ())
  else
    match perRound.proposals with
    | [] => (⟨[(proposal, validity)]⟩, .ok ())
    | first :: rest =>
        (⟨first :: rest ++ [(proposal, validity)]⟩,
          .error (.conflictingProposal first.1 proposal))

end PerRound

variable (C) in
structure ProposalKeeper where
  perRound : List (Round × PerRound C)
  evidence : Votes.EvidenceMap C.Address (SignedProposal C)

namespace ProposalKeeper

def new : ProposalKeeper C := ⟨[], .new⟩

def getProposalAndValidityForRoundAndValue (keeper : ProposalKeeper C) (round : Round)
    (valueId : C.ValueId) : Option (SignedProposal C × Validity) :=
  (KeyMap.get? keeper.perRound round).bind fun perRound =>
    perRound.getFirstProposalAndValidity valueId

def getProposalsAndValiditiesForRound (keeper : ProposalKeeper C) (round : Round) :
    List (SignedProposal C × Validity) :=
  ((KeyMap.get? keeper.perRound round).map PerRound.proposals).getD []

def storeProposal (keeper : ProposalKeeper C) (proposal : SignedProposal C)
    (validity : Validity) : ProposalKeeper C :=
  let round := proposal.message.round
  let (perRound, result) := ((KeyMap.get? keeper.perRound round).getD .new).add proposal validity
  let keeper := { keeper with perRound := KeyMap.insert keeper.perRound round perRound }
  match result with
  | .ok () => keeper
  | .error (.conflictingProposal existing conflicting) =>
      { keeper with
        evidence := keeper.evidence.add conflicting.message.validatorAddress existing conflicting }

end ProposalKeeper

end Malachite.Proposals
