import Malachite.VoteKeeper.Keeper
import Malachite.Lib.Weights

namespace Malachite.Votes

/-! The vote tallies of a reachable keeper are honest counts: each vote count
of each round is the tally of one (validator, value) pair per counted
validator, weighing that validator's power, and the weights of a round are set
once per validator.  From this follow the bounds by the total voting power that
keep the source's checked arithmetic from overflowing, and, for a quorum of at
least one half, that two values cannot both reach it. -/

variable {C : Context}

/-- The largest value of the source's `u64` weights. -/
def u64Max : Nat := 2 ^ 64 - 1

/-- The weight that counted (validator, value) pairs give a value. -/
def countedWeight (set : ValidatorSet C) (counted : List (C.Address × NilOrVal C.ValueId))
    (value : NilOrVal C.ValueId) : Nat :=
  ((counted.filter fun entry => entry.2 = value).map fun entry => set.powerOf entry.1).sum

/-- The weight of all counted pairs. -/
def countedSum (set : ValidatorSet C) (counted : List (C.Address × NilOrVal C.ValueId)) : Nat :=
  (counted.map fun entry => set.powerOf entry.1).sum

@[simp] theorem countedWeight_nil (set : ValidatorSet C) (value : NilOrVal C.ValueId) :
    countedWeight set [] value = 0 := rfl

@[simp] theorem countedSum_nil (set : ValidatorSet C) : countedSum set [] = 0 := rfl

theorem countedWeight_cons (set : ValidatorSet C) (address : C.Address)
    (voted : NilOrVal C.ValueId) (counted : List (C.Address × NilOrVal C.ValueId))
    (value : NilOrVal C.ValueId) :
    countedWeight set ((address, voted) :: counted) value =
      if voted = value then set.powerOf address + countedWeight set counted value
      else countedWeight set counted value := by
  by_cases same : voted = value
  · simp [countedWeight, same]
  · simp [countedWeight, same]

theorem countedSum_cons (set : ValidatorSet C) (address : C.Address)
    (voted : NilOrVal C.ValueId) (counted : List (C.Address × NilOrVal C.ValueId)) :
    countedSum set ((address, voted) :: counted) = set.powerOf address + countedSum set counted := by
  simp [countedSum]

/-- Distinct validators of a set weigh at most its total voting power. -/
theorem sum_powerOf_le_total {set : ValidatorSet C} (distinct : set.AddressesDistinct)
    {addresses : List C.Address} (unique : addresses.Nodup)
    (known : ∀ address ∈ addresses, address ∈ set.validators.map Validator.address) :
    (addresses.map set.powerOf).sum ≤ set.totalVotingPower := by
  rw [ValidatorSet.totalVotingPower_eq_sum_powerOf distinct]
  exact Weights.sum_le_of_nodup_subset set.powerOf unique known

theorem countedWeight_add_countedWeight_le (set : ValidatorSet C)
    (counted : List (C.Address × NilOrVal C.ValueId)) {first second : NilOrVal C.ValueId}
    (different : first ≠ second) :
    countedWeight set counted first + countedWeight set counted second ≤ countedSum set counted := by
  apply Weights.sum_filter_add_sum_filter_le
  intro entry voted
  have chosen : entry.2 = first := of_decide_eq_true voted
  rw [chosen]
  exact decide_eq_false different

namespace VoteCount

/-- A vote count is the tally of `counted`: one (validator, value) pair per
counted validator of the set, each weighing its validator's power. -/
structure Counts (set : ValidatorSet C) (count : VoteCount C)
    (counted : List (C.Address × NilOrVal C.ValueId)) : Prop where
  addresses : count.validatorAddresses = counted.map Prod.fst
  distinct : (counted.map Prod.fst).Nodup
  known : ∀ address ∈ counted.map Prod.fst, address ∈ set.validators.map Validator.address
  weight : ∀ value, count.get value = countedWeight set counted value
  sum : count.sum = countedSum set counted

theorem counts_new (set : ValidatorSet C) : (new : VoteCount C).Counts set [] where
  addresses := rfl
  distinct := List.nodup_nil
  known := by simp
  weight := by simp [new, get, ValuesWeights.new, ValuesWeights.get]
  sum := by simp [new, sum, ValuesWeights.new, ValuesWeights.sum, KeyMap.sumValues]

/-- Counting a vote of a known validator keeps the count a tally: a counted
validator is ignored, a new one is counted once for its value. -/
theorem Counts.add {set : ValidatorSet C} {count : VoteCount C}
    {counted : List (C.Address × NilOrVal C.ValueId)} (counts : count.Counts set counted)
    (vote : Vote C) {validator : Validator C}
    (found : set.getByAddress vote.validatorAddress = some validator) :
    ∃ counted', (count.add vote validator.votingPower).1.Counts set counted' := by
  by_cases member : vote.validatorAddress ∈ count.validatorAddresses
  · rw [add_of_mem _ member]
    exact ⟨counted, counts⟩
  · have power : set.powerOf vote.validatorAddress = validator.votingPower :=
      ValidatorSet.powerOf_of_getByAddress found
    have fresh : vote.validatorAddress ∉ counted.map Prod.fst := by
      rw [← counts.addresses]
      exact member
    refine ⟨(vote.validatorAddress, vote.value) :: counted, ?_, ?_, ?_, ?_, ?_⟩
    · rw [validatorAddresses_add_of_not_mem _ member, counts.addresses, List.map_cons]
    · exact List.nodup_cons.mpr ⟨fresh, counts.distinct⟩
    · intro address listed
      rcases List.mem_cons.mp listed with same | earlier
      · rw [same]
        exact ValidatorSet.mem_addresses_of_getByAddress found
      · exact counts.known address earlier
    · intro value
      rw [get_add_of_not_mem _ member, countedWeight_cons, power]
      by_cases same : vote.value = value
      · rw [if_pos same, if_pos same, ← same, counts.weight]
        omega
      · rw [if_neg same, if_neg same, counts.weight]
    · rw [sum_add_of_not_mem _ member, countedSum_cons, power, counts.sum]
      omega

theorem Counts.sum_le_total {set : ValidatorSet C} {count : VoteCount C}
    {counted : List (C.Address × NilOrVal C.ValueId)} (counts : count.Counts set counted)
    (distinct : set.AddressesDistinct) : count.sum ≤ set.totalVotingPower := by
  have weighed : countedSum set counted = ((counted.map Prod.fst).map set.powerOf).sum := by
    simp [countedSum, List.map_map, Function.comp_def]
  rw [counts.sum, weighed]
  exact sum_powerOf_le_total distinct counts.distinct counts.known

theorem Counts.get_add_get_le {set : ValidatorSet C} {count : VoteCount C}
    {counted : List (C.Address × NilOrVal C.ValueId)} (counts : count.Counts set counted)
    {first second : NilOrVal C.ValueId} (different : first ≠ second) :
    count.get first + count.get second ≤ count.sum := by
  rw [counts.weight, counts.weight, counts.sum]
  exact countedWeight_add_countedWeight_le set counted different

theorem get_le_sum (count : VoteCount C) (value : NilOrVal C.ValueId) :
    count.get value ≤ count.sum :=
  ValuesWeights.get_le_sum count.valuesWeights value

end VoteCount

namespace RoundWeights

/-- The weights of a round: distinct known validators, each with its power. -/
structure Weighs (set : ValidatorSet C) (weights : RoundWeights C.Address) : Prop where
  distinct : (weights.map.map Prod.fst).Nodup
  known : ∀ entry ∈ weights.map,
    entry.1 ∈ set.validators.map Validator.address ∧ entry.2 = set.powerOf entry.1

theorem weighs_new (set : ValidatorSet C) : (new : RoundWeights C.Address).Weighs set where
  distinct := List.nodup_nil
  known := by simp [new]

theorem Weighs.setOnce {set : ValidatorSet C} {weights : RoundWeights C.Address}
    (weighs : weights.Weighs set) {address : C.Address} {validator : Validator C}
    (found : set.getByAddress address = some validator) :
    (weights.setOnce address validator.votingPower).Weighs set := by
  unfold RoundWeights.setOnce
  cases stored : KeyMap.get? weights.map address with
  | some _ => exact weighs
  | none =>
      have fresh : address ∉ weights.map.map Prod.fst := KeyMap.get?_eq_none_iff.mp stored
      rw [KeyMap.insert_of_get?_eq_none _ stored]
      constructor
      · rw [List.map_append, List.nodup_append]
        refine ⟨weighs.distinct, List.nodup_singleton address, ?_⟩
        intro earlier listed added single same
        simp only [List.map_cons, List.map_nil, List.mem_singleton] at single
        rw [same, single] at listed
        exact fresh listed
      · intro entry listed
        rcases List.mem_append.mp listed with earlier | added
        · exact weighs.known entry earlier
        · rw [List.mem_singleton.mp added]
          exact ⟨ValidatorSet.mem_addresses_of_getByAddress found,
            (ValidatorSet.powerOf_of_getByAddress found).symm⟩

theorem Weighs.sum_le_total {set : ValidatorSet C} {weights : RoundWeights C.Address}
    (weighs : weights.Weighs set) (distinct : set.AddressesDistinct) :
    weights.sum ≤ set.totalVotingPower := by
  have weighed : weights.sum = ((weights.map.map Prod.fst).map set.powerOf).sum := by
    unfold RoundWeights.sum KeyMap.sumValues
    rw [List.map_map]
    congr 1
    exact List.map_congr_left fun entry listed => (weighs.known entry listed).2
  rw [weighed]
  exact sum_powerOf_le_total distinct weighs.distinct
    fun address listed => by
      obtain ⟨entry, member, same⟩ := List.mem_map.mp listed
      rw [← same]
      exact (weighs.known entry member).1

end RoundWeights

namespace PerRound

/-- Every vote count of the round is a tally, and its weights are set once. -/
structure Tallied (set : ValidatorSet C) (perRound : PerRound C) : Prop where
  counts : ∀ voteType, ∃ counted, (perRound.votes.count voteType).Counts set counted
  weights : perRound.addressesWeights.Weighs set

theorem tallied_new (set : ValidatorSet C) : (new : PerRound C).Tallied set where
  counts voteType := ⟨[], by cases voteType <;> exact VoteCount.counts_new set⟩
  weights := RoundWeights.weighs_new set

theorem Tallied.add {set : ValidatorSet C} {perRound recorded : PerRound C}
    (tallied : perRound.Tallied set) {vote : SignedVote C} {validator : Validator C}
    (found : set.getByAddress vote.message.validatorAddress = some validator)
    (added : perRound.add vote validator.votingPower = .ok recorded) : recorded.Tallied set := by
  obtain ⟨votes, weights, -, -⟩ := add_eq_ok added
  constructor
  · intro voteType
    rw [votes, RoundVotes.addVote_count]
    obtain ⟨counted, counts⟩ := tallied.counts voteType
    split
    · exact counts.add vote.message found
    · exact ⟨counted, counts⟩
  · rw [weights]
    exact tallied.weights.setOnce found

theorem Tallied.of_same {set : ValidatorSet C} {perRound updated : PerRound C}
    (tallied : perRound.Tallied set) (votes : updated.votes = perRound.votes)
    (weights : updated.addressesWeights = perRound.addressesWeights) : updated.Tallied set where
  counts := by
    rw [votes]
    exact tallied.counts
  weights := by
    rw [weights]
    exact tallied.weights

end PerRound

namespace VoteKeeper

/-- Every round of the keeper is tallied over its validator set. -/
structure Tallied (set : ValidatorSet C) (keeper : VoteKeeper C) : Prop where
  validatorSet : keeper.validatorSet = set
  rounds : ∀ round perRound, keeper.getPerRound round = some perRound → perRound.Tallied set

theorem tallied_new (set : ValidatorSet C) (params : ThresholdParams) :
    (new set params).Tallied set where
  validatorSet := rfl
  rounds round perRound found := by simp [new, getPerRound] at found

theorem Tallied.setPerRound {set : ValidatorSet C} {keeper : VoteKeeper C}
    (tallied : keeper.Tallied set) (round : Round) {perRound : PerRound C}
    (stored : perRound.Tallied set) : (keeper.setPerRound round perRound).Tallied set where
  validatorSet := tallied.validatorSet
  rounds wanted found found' := by
    rw [getPerRound_setPerRound] at found'
    split at found'
    · cases found'
      exact stored
    · exact tallied.rounds wanted found found'

theorem Tallied.stored {set : ValidatorSet C} {keeper : VoteKeeper C}
    (tallied : keeper.Tallied set) (round : Round) :
    ((keeper.getPerRound round).getD .new).Tallied set := by
  cases found : keeper.getPerRound round with
  | none => exact PerRound.tallied_new set
  | some perRound => exact tallied.rounds round perRound found

theorem Tallied.applyVote {set : ValidatorSet C} {keeper : VoteKeeper C}
    (tallied : keeper.Tallied set) (vote : SignedVote C) (round : Round) :
    (keeper.applyVote vote round).1.Tallied set := by
  have opened := tallied.setPerRound vote.message.round (tallied.stored vote.message.round)
  rcases applyVote_keeper keeper vote round with
    same | ⟨evidence, same⟩ | ⟨validator, recorded, updated, found, added, votes, weights, -, same⟩
  · rw [same]
    exact opened
  · rw [same]
    exact ⟨opened.validatorSet, opened.rounds⟩
  · rw [tallied.validatorSet] at found
    have kept := (tallied.stored vote.message.round).add found added
    rw [same]
    exact opened.setPerRound vote.message.round (kept.of_same votes weights)

theorem Tallied.pruneVotes {set : ValidatorSet C} {keeper : VoteKeeper C}
    (tallied : keeper.Tallied set) (minRound : Round) : (keeper.pruneVotes minRound).Tallied set where
  validatorSet := tallied.validatorSet
  rounds wanted perRound found := by
    rw [getPerRound_pruneVotes] at found
    split at found
    · exact tallied.rounds wanted perRound found
    · cases found

theorem Tallied.step {set : ValidatorSet C} {keeper keeper' : VoteKeeper C}
    (tallied : keeper.Tallied set) (step : Step keeper keeper') : keeper'.Tallied set := by
  cases step with
  | applyVote vote round => exact tallied.applyVote vote round
  | pruneVotes minRound => exact tallied.pruneVotes minRound

theorem tallied_of_reachable {set : ValidatorSet C} {params : ThresholdParams}
    {keeper : VoteKeeper C} (reachable : keeper.Reachable set params) : keeper.Tallied set := by
  induction reachable with
  | refl => exact tallied_new set params
  | tail _ step tallied => exact tallied.step step

/-- What the tally invariant gives for one round and vote type of a keeper:
an honest tally; weights and their sums within the total voting power, itself
within a `u64`, so that the next vote's addition fits; and, for a quorum of at
least one half, no two values reaching it. -/
structure CountBounds (set : ValidatorSet C) (keeper : VoteKeeper C) (perRound : PerRound C)
    (voteType : VoteType) : Prop where
  tally : ∃ counted, (perRound.votes.count voteType).Counts set counted
  valueBounded : ∀ value, (perRound.votes.count voteType).get value ≤ keeper.totalWeight
  sumBounded : (perRound.votes.count voteType).sum ≤ keeper.totalWeight
  weightsBounded : perRound.addressesWeights.sum ≤ keeper.totalWeight
  totalFits : keeper.totalWeight ≤ u64Max
  nextFits : ∀ (vote : Vote C) (validator : Validator C),
    set.getByAddress vote.validatorAddress = some validator →
    vote.validatorAddress ∉ (perRound.votes.count voteType).validatorAddresses →
    (perRound.votes.count voteType).get vote.value + validator.votingPower ≤ u64Max
  quorumUnique :
    keeper.thresholdParams.quorum.denominator ≤ 2 * keeper.thresholdParams.quorum.numerator →
      ∀ first second, first ≠ second →
        ¬ (keeper.thresholdParams.quorum.isMet ((perRound.votes.count voteType).get first)
            keeper.totalWeight ∧
          keeper.thresholdParams.quorum.isMet ((perRound.votes.count voteType).get second)
            keeper.totalWeight)

theorem votes_counted_once {set : ValidatorSet C} {params : ThresholdParams}
    {keeper : VoteKeeper C} (distinct : set.AddressesDistinct)
    (fits : set.totalVotingPower ≤ u64Max) (reachable : keeper.Reachable set params)
    {round : Round} {perRound : PerRound C} (found : keeper.getPerRound round = some perRound)
    (voteType : VoteType) : CountBounds set keeper perRound voteType := by
  have tallied := tallied_of_reachable reachable
  have total : keeper.totalWeight = set.totalVotingPower := by
    rw [totalWeight, tallied.validatorSet]
  obtain ⟨counted, counts⟩ := (tallied.rounds round perRound found).counts voteType
  have bounded := counts.sum_le_total distinct
  constructor
  · exact ⟨counted, counts⟩
  · intro value
    rw [total]
    exact Nat.le_trans ((perRound.votes.count voteType).get_le_sum value) bounded
  · rw [total]
    exact bounded
  · rw [total]
    exact (tallied.rounds round perRound found).weights.sum_le_total distinct
  · rw [total]
    exact fits
  · intro vote validator member absent
    obtain ⟨counted', counts'⟩ := counts.add vote member
    have grown := counts'.sum_le_total distinct
    rw [VoteCount.sum_add_of_not_mem _ absent] at grown
    have below := (perRound.votes.count voteType).get_le_sum vote.value
    omega
  · intro half first second different met
    rw [total, ThresholdParam.isMet_iff, ThresholdParam.isMet_iff] at met
    exact Weights.not_both_met half
      (Nat.le_trans (counts.get_add_get_le different) bounded) met.1 met.2

/-- Two validators of power one. -/
def pairSet : ValidatorSet testContext := ⟨[⟨0, 0, 1⟩, ⟨1, 1, 1⟩]⟩

/-- The keeper of `pairSet` after a prevote of validator 0 at round 0. -/
def pairKeeper : VoteKeeper testContext :=
  ((new pairSet .default).applyVote ⟨Vote.newPrevote 0 (.some 0) (.val 5) 0, 0⟩ (.some 0)).1

theorem pairKeeper_counted_once :
    pairSet.AddressesDistinct ∧ pairSet.totalVotingPower ≤ u64Max ∧
      pairKeeper.Reachable pairSet .default ∧
      pairKeeper.getPerRound (.some 0) = some ((pairKeeper.getPerRound (.some 0)).getD .new) ∧
      CountBounds pairSet pairKeeper ((pairKeeper.getPerRound (.some 0)).getD .new) .prevote :=
  have distinct : pairSet.AddressesDistinct := by decide
  have fits : pairSet.totalVotingPower ≤ u64Max := by decide
  have reachable : pairKeeper.Reachable pairSet .default :=
    Relation.ReflTransGen.single (.applyVote _ _ _)
  have found : pairKeeper.getPerRound (.some 0) =
      some ((pairKeeper.getPerRound (.some 0)).getD .new) := by decide
  ⟨distinct, fits, reachable, found, votes_counted_once distinct fits reachable found .prevote⟩

end VoteKeeper

end Malachite.Votes
