import Malachite.VoteKeeper.Count

namespace Malachite.Votes

/-! `VoteKeeper` (`keeper.rs` and `evidence.rs`): per-round vote records and
the thresholds they trigger. -/

variable {C : Context}

/-- `keeper::Output`, the messages emitted by the vote keeper. -/
inductive Output (α : Type) where
  | polkaAny
  | polkaNil
  | polkaValue (value : α)
  | precommitAny
  | precommitValue (value : α)
  | skipRound (round : Round)
deriving DecidableEq, Repr

variable (C) in
structure PerRound where
  votes : RoundVotes C
  addressesWeights : RoundWeights C.Address
  receivedVotes : List (SignedVote C)
  emittedOutputs : List (Output C.ValueId)
deriving DecidableEq

variable (C) in
inductive RecordVoteError where
  | conflictingVote (existing conflicting : SignedVote C)

namespace PerRound

def new : PerRound C := ⟨.new, .new, [], []⟩

def getVote (perRound : PerRound C) (voteType : VoteType) (address : C.Address) :
    Option (SignedVote C) :=
  perRound.receivedVotes.find? fun vote =>
    vote.message.voteType = voteType ∧ vote.message.validatorAddress = address

/-- Record a vote, unless it conflicts with the recorded vote of the same
validator and type.  A repeated vote for the same value is recorded again. -/
def add (perRound : PerRound C) (vote : SignedVote C) (weight : Nat) :
    Except (RecordVoteError C) (PerRound C) :=
  let conflicting := (perRound.getVote vote.message.voteType vote.message.validatorAddress).filter
    fun existing => existing.message.value ≠ vote.message.value
  match conflicting with
  | some existing => .error (.conflictingVote existing vote)
  | none =>
      .ok { perRound with
        votes := (perRound.votes.addVote vote.message weight).1
        addressesWeights := perRound.addressesWeights.setOnce vote.message.validatorAddress weight
        receivedVotes := perRound.receivedVotes ++ [vote] }

/-- Insert into the `BTreeSet` of emitted outputs. -/
def emit (perRound : PerRound C) (output : Output C.ValueId) : PerRound C :=
  if output ∈ perRound.emittedOutputs then perRound
  else { perRound with emittedOutputs := perRound.emittedOutputs ++ [output] }

@[simp] theorem emit_votes (perRound : PerRound C) (output : Output C.ValueId) :
    (perRound.emit output).votes = perRound.votes := by
  unfold emit
  split <;> rfl

@[simp] theorem emit_addressesWeights (perRound : PerRound C) (output : Output C.ValueId) :
    (perRound.emit output).addressesWeights = perRound.addressesWeights := by
  unfold emit
  split <;> rfl

@[simp] theorem emit_receivedVotes (perRound : PerRound C) (output : Output C.ValueId) :
    (perRound.emit output).receivedVotes = perRound.receivedVotes := by
  unfold emit
  split <;> rfl

theorem add_eq_ok {perRound recorded : PerRound C} {vote : SignedVote C} {weight : Nat}
    (added : perRound.add vote weight = .ok recorded) :
    recorded.votes = (perRound.votes.addVote vote.message weight).1 ∧
      recorded.addressesWeights =
        perRound.addressesWeights.setOnce vote.message.validatorAddress weight ∧
      recorded.receivedVotes = perRound.receivedVotes ++ [vote] ∧
      recorded.emittedOutputs = perRound.emittedOutputs := by
  unfold add at added
  dsimp only at added
  split at added
  · cases added
  · cases added
    exact ⟨rfl, rfl, rfl, rfl⟩

end PerRound

/-- Evidence of equivocation: for each address, the pairs (recorded vote, conflicting vote). -/
structure EvidenceMap (α β : Type) where
  map : List (α × List (β × β))

namespace EvidenceMap

variable {α β : Type} [DecidableEq α]

def new : EvidenceMap α β := ⟨[]⟩

def add (evidence : EvidenceMap α β) (address : α) (existing vote : β) : EvidenceMap α β :=
  match KeyMap.get? evidence.map address with
  | some pairs => ⟨KeyMap.insert evidence.map address (pairs ++ [(existing, vote)])⟩
  | none => ⟨KeyMap.insert evidence.map address [(existing, vote)]⟩

end EvidenceMap

variable (C) in
structure VoteKeeper where
  validatorSet : ValidatorSet C
  thresholdParams : ThresholdParams
  perRound : List (Round × PerRound C)
  evidence : EvidenceMap C.Address (SignedVote C)

/-- Compute whether a threshold is reached for the vote's value (`compute_threshold`). -/
def computeThreshold (voteType : VoteType) (round : PerRound C) (value : NilOrVal C.ValueId)
    (thresholds : ThresholdParams) (totalWeight : Nat) : Threshold C.ValueId :=
  let weight := round.votes.getWeight voteType value
  match value with
  | .val value =>
      if thresholds.quorum.isMet weight totalWeight then .value value
      else if thresholds.quorum.isMet (round.votes.weightSum voteType) totalWeight then .any
      else .unreached
  | .nil =>
      if thresholds.quorum.isMet weight totalWeight then .nil
      else if thresholds.quorum.isMet (round.votes.weightSum voteType) totalWeight then .any
      else .unreached

def thresholdToOutput {α : Type} : VoteType → Threshold α → Option (Output α)
  | _, .unreached => none
  | .prevote, .any => some .polkaAny
  | .prevote, .nil => some .polkaNil
  | .prevote, .value value => some (.polkaValue value)
  | .precommit, .any => some .precommitAny
  | .precommit, .nil => some .precommitAny
  | .precommit, .value value => some (.precommitValue value)

namespace VoteKeeper

def new (validatorSet : ValidatorSet C) (thresholdParams : ThresholdParams) : VoteKeeper C :=
  ⟨validatorSet, thresholdParams, [], .new⟩

def totalWeight (keeper : VoteKeeper C) : Nat := keeper.validatorSet.totalVotingPower

def getPerRound (keeper : VoteKeeper C) (round : Round) : Option (PerRound C) :=
  KeyMap.get? keeper.perRound round

def hasVote (keeper : VoteKeeper C) (vote : SignedVote C) : Bool :=
  match keeper.getPerRound vote.message.round with
  | some perRound => decide (vote ∈ perRound.receivedVotes)
  | none => false

def setPerRound (keeper : VoteKeeper C) (round : Round) (perRound : PerRound C) : VoteKeeper C :=
  { keeper with perRound := KeyMap.insert keeper.perRound round perRound }

/-- Apply a vote at our current round `round`, possibly emitting an output.  The
round's entry is created before the validator is looked up. -/
def applyVote (keeper : VoteKeeper C) (vote : SignedVote C) (round : Round) :
    VoteKeeper C × Option (Output C.ValueId) :=
  let totalWeight := keeper.totalWeight
  let perRound := (keeper.getPerRound vote.message.round).getD .new
  let keeper := keeper.setPerRound vote.message.round perRound
  match keeper.validatorSet.getByAddress vote.message.validatorAddress with
  | none => (keeper, none)
  | some validator =>
      match perRound.add vote validator.votingPower with
      | .error (.conflictingVote existing conflicting) =>
          ({ keeper with
              evidence := keeper.evidence.add conflicting.message.validatorAddress existing conflicting },
            none)
      | .ok perRound =>
          if vote.message.round > round ∧
              keeper.thresholdParams.honest.isMet perRound.addressesWeights.sum totalWeight then
            let output := Output.skipRound vote.message.round
            (keeper.setPerRound vote.message.round (perRound.emit output), some output)
          else
            let threshold := computeThreshold vote.message.voteType perRound vote.message.value
              keeper.thresholdParams totalWeight
            match thresholdToOutput vote.message.voteType threshold with
            | some output =>
                if output ∈ perRound.emittedOutputs then
                  (keeper.setPerRound vote.message.round perRound, none)
                else
                  (keeper.setPerRound vote.message.round (perRound.emit output), some output)
            | none => (keeper.setPerRound vote.message.round perRound, none)

def isThresholdMet (keeper : VoteKeeper C) (round : Round) (voteType : VoteType)
    (threshold : Threshold C.ValueId) : Bool :=
  match keeper.getPerRound round with
  | some perRound =>
      perRound.votes.isThresholdMet voteType threshold keeper.thresholdParams.quorum
        keeper.totalWeight
  | none => false

def pruneVotes (keeper : VoteKeeper C) (minRound : Round) : VoteKeeper C :=
  { keeper with perRound := KeyMap.retain keeper.perRound fun round => decide (round ≥ minRound) }

@[simp] theorem setPerRound_validatorSet (keeper : VoteKeeper C) (round : Round)
    (perRound : PerRound C) : (keeper.setPerRound round perRound).validatorSet = keeper.validatorSet :=
  rfl

@[simp] theorem setPerRound_thresholdParams (keeper : VoteKeeper C) (round : Round)
    (perRound : PerRound C) :
    (keeper.setPerRound round perRound).thresholdParams = keeper.thresholdParams :=
  rfl

theorem getPerRound_setPerRound (keeper : VoteKeeper C) (round wanted : Round)
    (perRound : PerRound C) :
    (keeper.setPerRound round perRound).getPerRound wanted =
      if round = wanted then some perRound else keeper.getPerRound wanted :=
  KeyMap.get?_insert keeper.perRound round wanted perRound

@[simp] theorem pruneVotes_validatorSet (keeper : VoteKeeper C) (minRound : Round) :
    (keeper.pruneVotes minRound).validatorSet = keeper.validatorSet :=
  rfl

@[simp] theorem pruneVotes_thresholdParams (keeper : VoteKeeper C) (minRound : Round) :
    (keeper.pruneVotes minRound).thresholdParams = keeper.thresholdParams :=
  rfl

theorem getPerRound_pruneVotes (keeper : VoteKeeper C) (minRound wanted : Round) :
    (keeper.pruneVotes minRound).getPerRound wanted =
      if minRound ≤ wanted then keeper.getPerRound wanted else none := by
  simp [pruneVotes, getPerRound, KeyMap.get?_retain]

/-- Everything `applyVote` can do to the keeper: open the vote's round, and
then either stop there (unknown validator), record evidence of a conflict, or
store the round with the vote recorded and possibly one more emitted output. -/
theorem applyVote_keeper (keeper : VoteKeeper C) (vote : SignedVote C) (round : Round) :
    let stored := (keeper.getPerRound vote.message.round).getD .new
    let opened := keeper.setPerRound vote.message.round stored
    (keeper.applyVote vote round).1 = opened ∨
      (∃ evidence, (keeper.applyVote vote round).1 = { opened with evidence }) ∨
      ∃ validator recorded updated,
        keeper.validatorSet.getByAddress vote.message.validatorAddress = some validator ∧
        stored.add vote validator.votingPower = .ok recorded ∧
        updated.votes = recorded.votes ∧ updated.addressesWeights = recorded.addressesWeights ∧
        updated.receivedVotes = recorded.receivedVotes ∧
        (keeper.applyVote vote round).1 = opened.setPerRound vote.message.round updated := by
  intro stored opened
  cases found : keeper.validatorSet.getByAddress vote.message.validatorAddress with
  | none => exact Or.inl (by simp [applyVote, found, opened, stored])
  | some validator =>
      cases added : stored.add vote validator.votingPower with
      | error conflict =>
          cases conflict with
          | conflictingVote existing conflicting =>
              refine Or.inr (Or.inl
                ⟨keeper.evidence.add conflicting.message.validatorAddress existing conflicting, ?_⟩)
              simp only [stored] at added
              simp [applyVote, found, added, opened, stored, setPerRound]
      | ok recorded =>
          have stepped : ∃ updated, (updated = recorded ∨ ∃ output, updated = recorded.emit output) ∧
              (keeper.applyVote vote round).1 = opened.setPerRound vote.message.round updated := by
            simp only [stored] at added
            simp only [applyVote, setPerRound_validatorSet, found, added]
            split
            · exact ⟨_, Or.inr ⟨_, rfl⟩, rfl⟩
            · split
              · split
                · exact ⟨_, Or.inl rfl, rfl⟩
                · exact ⟨_, Or.inr ⟨_, rfl⟩, rfl⟩
              · exact ⟨_, Or.inl rfl, rfl⟩
          obtain ⟨updated, kept | ⟨output, emitted⟩, result⟩ := stepped
          · subst kept
            exact Or.inr (Or.inr ⟨validator, updated, updated, rfl, added, rfl, rfl, rfl, result⟩)
          · subst emitted
            exact Or.inr (Or.inr ⟨validator, recorded, _, rfl, added, PerRound.emit_votes ..,
              PerRound.emit_addressesWeights .., PerRound.emit_receivedVotes .., result⟩)

/-- The calls a node makes on its vote keeper. -/
inductive Step : VoteKeeper C → VoteKeeper C → Prop
  | applyVote (keeper : VoteKeeper C) (vote : SignedVote C) (round : Round) :
      Step keeper (keeper.applyVote vote round).1
  | pruneVotes (keeper : VoteKeeper C) (minRound : Round) :
      Step keeper (keeper.pruneVotes minRound)

/-- The keepers reached by a run of calls from a new keeper. -/
def Reachable (validatorSet : ValidatorSet C) (thresholdParams : ThresholdParams)
    (keeper : VoteKeeper C) : Prop :=
  Relation.ReflTransGen Step (new validatorSet thresholdParams) keeper

end VoteKeeper

end Malachite.Votes
