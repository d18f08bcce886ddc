import Malachite.Types.Context
import Malachite.Lib.KeyMap

namespace Malachite.Votes

/-! Vote tallies of `core-votekeeper`: `value_weights.rs`, `count.rs`,
`round_votes.rs` and `round_weights.rs`.  The source's `BTreeMap`s and
`BTreeSet`s are association lists (`KeyMap`); weights are `Nat`, and the
`checked_add` overflow checks are stated as bounds in `VoteKeeper.Tally`. -/

variable {C : Context}

structure ValuesWeights (ν : Type) where
  valueWeights : List (ν × Nat)
deriving DecidableEq

namespace ValuesWeights

variable {ν : Type} [DecidableEq ν]

def new : ValuesWeights ν := ⟨[]⟩

def get (weights : ValuesWeights ν) (value : ν) : Nat :=
  (KeyMap.get? weights.valueWeights value).getD 0

/-- Add weight to a value; returns the new weight of that value. -/
def add (weights : ValuesWeights ν) (value : ν) (weight : Nat) : ValuesWeights ν × Nat :=
  let entry := weights.get value + weight
  (⟨KeyMap.insert weights.valueWeights value entry⟩, entry)

def sum (weights : ValuesWeights ν) : Nat :=
  KeyMap.sumValues weights.valueWeights

theorem get_add (weights : ValuesWeights ν) (value other : ν) (weight : Nat) :
    (weights.add value weight).1.get other =
      if value = other then weights.get value + weight else weights.get other := by
  simp only [add, get, KeyMap.get?_insert]
  split <;> simp_all

theorem sum_add (weights : ValuesWeights ν) (value : ν) (weight : Nat) :
    (weights.add value weight).1.sum = weights.sum + weight := by
  have inserted := KeyMap.sumValues_insert weights.valueWeights value (weights.get value + weight)
  simp only [add, sum, get] at inserted ⊢
  omega

theorem get_le_sum (weights : ValuesWeights ν) (value : ν) : weights.get value ≤ weights.sum :=
  KeyMap.get?_le_sumValues weights.valueWeights value

end ValuesWeights

variable (C) in
/-- Votes of one type in one round. -/
structure VoteCount where
  valuesWeights : ValuesWeights (NilOrVal C.ValueId)
  validatorAddresses : List C.Address
deriving DecidableEq

namespace VoteCount

def new : VoteCount C := ⟨.new, []⟩

/-- Count a vote, unless its validator has already been counted. -/
def add (count : VoteCount C) (vote : Vote C) (weight : Nat) : VoteCount C × Nat :=
  if vote.validatorAddress ∈ count.validatorAddresses then
    (count, count.valuesWeights.get vote.value)
  else
    let (valuesWeights, total) := count.valuesWeights.add vote.value weight
    ({ valuesWeights, validatorAddresses := vote.validatorAddress :: count.validatorAddresses },
      total)

def get (count : VoteCount C) (value : NilOrVal C.ValueId) : Nat :=
  count.valuesWeights.get value

def sum (count : VoteCount C) : Nat := count.valuesWeights.sum

def isThresholdMet (count : VoteCount C) (threshold : Threshold C.ValueId)
    (param : ThresholdParam) (totalWeight : Nat) : Bool :=
  match threshold with
  | .value value => param.isMet (count.valuesWeights.get (.val value)) totalWeight
  | .nil => param.isMet (count.valuesWeights.get .nil) totalWeight
  | .any => param.isMet count.valuesWeights.sum totalWeight
  | .unreached => false

theorem add_of_mem {count : VoteCount C} {vote : Vote C} (weight : Nat)
    (member : vote.validatorAddress ∈ count.validatorAddresses) : (count.add vote weight).1 = count := by
  simp [add, member]

theorem validatorAddresses_add_of_not_mem {count : VoteCount C} {vote : Vote C} (weight : Nat)
    (fresh : vote.validatorAddress ∉ count.validatorAddresses) :
    (count.add vote weight).1.validatorAddresses = vote.validatorAddress :: count.validatorAddresses := by
  simp [add, fresh]

theorem get_add_of_not_mem {count : VoteCount C} {vote : Vote C} (weight : Nat)
    (fresh : vote.validatorAddress ∉ count.validatorAddresses) (value : NilOrVal C.ValueId) :
    (count.add vote weight).1.get value =
      if vote.value = value then count.get vote.value + weight else count.get value := by
  simp only [add, fresh, if_false, get]
  exact ValuesWeights.get_add count.valuesWeights vote.value value weight

theorem sum_add_of_not_mem {count : VoteCount C} {vote : Vote C} (weight : Nat)
    (fresh : vote.validatorAddress ∉ count.validatorAddresses) :
    (count.add vote weight).1.sum = count.sum + weight := by
  simp only [add, fresh, if_false, sum]
  exact ValuesWeights.sum_add count.valuesWeights vote.value weight

end VoteCount

variable (C) in
/-- All the votes of one round. -/
structure RoundVotes where
  prevotes : VoteCount C
  precommits : VoteCount C
deriving DecidableEq

namespace RoundVotes

def new : RoundVotes C := ⟨.new, .new⟩

def count (votes : RoundVotes C) : VoteType → VoteCount C
  | .prevote => votes.prevotes
  | .precommit => votes.precommits

def addVote (votes : RoundVotes C) (vote : Vote C) (weight : Nat) : RoundVotes C × Nat :=
  match vote.voteType with
  | .prevote =>
      let (prevotes, total) := votes.prevotes.add vote weight
      ({ votes with prevotes }, total)
  | .precommit =>
      let (precommits, total) := votes.precommits.add vote weight
      ({ votes with precommits }, total)

def getWeight (votes : RoundVotes C) (voteType : VoteType) (value : NilOrVal C.ValueId) : Nat :=
  match voteType with
  | .prevote => votes.prevotes.get value
  | .precommit => votes.precommits.get value

def weightSum (votes : RoundVotes C) (voteType : VoteType) : Nat :=
  match voteType with
  | .prevote => votes.prevotes.sum
  | .precommit => votes.precommits.sum

def isThresholdMet (votes : RoundVotes C) (voteType : VoteType) (threshold : Threshold C.ValueId)
    (param : ThresholdParam) (totalWeight : Nat) : Bool :=
  match voteType with
  | .prevote => votes.prevotes.isThresholdMet threshold param totalWeight
  | .precommit => votes.precommits.isThresholdMet threshold param totalWeight

theorem addVote_count (votes : RoundVotes C) (vote : Vote C) (weight : Nat) (voteType : VoteType) :
    (votes.addVote vote weight).1.count voteType =
      if vote.voteType = voteType then ((votes.count voteType).add vote weight).1
      else votes.count voteType := by
  cases kind : vote.voteType <;> cases voteType <;> simp [addVote, count, kind]

@[simp] theorem getWeight_eq (votes : RoundVotes C) (voteType : VoteType)
    (value : NilOrVal C.ValueId) : votes.getWeight voteType value = (votes.count voteType).get value := by
  cases voteType <;> rfl

@[simp] theorem weightSum_eq (votes : RoundVotes C) (voteType : VoteType) :
    votes.weightSum voteType = (votes.count voteType).sum := by
  cases voteType <;> rfl

@[simp] theorem isThresholdMet_eq (votes : RoundVotes C) (voteType : VoteType)
    (threshold : Threshold C.ValueId) (param : ThresholdParam) (totalWeight : Nat) :
    votes.isThresholdMet voteType threshold param totalWeight =
      (votes.count voteType).isThresholdMet threshold param totalWeight := by
  cases voteType <;> rfl

end RoundVotes

/-- The weight of each validator that voted in a round, set once. -/
structure RoundWeights (α : Type) where
  map : List (α × Nat)
deriving DecidableEq

namespace RoundWeights

variable {α : Type} [DecidableEq α]

def new : RoundWeights α := ⟨[]⟩

def setOnce (weights : RoundWeights α) (address : α) (weight : Nat) : RoundWeights α :=
  match KeyMap.get? weights.map address with
  | some _ => weights
  | none => ⟨KeyMap.insert weights.map address weight⟩

def get (weights : RoundWeights α) (address : α) : Nat :=
  (KeyMap.get? weights.map address).getD 0

def sum (weights : RoundWeights α) : Nat := KeyMap.sumValues weights.map

end RoundWeights

end Malachite.Votes
