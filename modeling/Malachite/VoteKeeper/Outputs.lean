import Malachite.VoteKeeper.Keeper

namespace Malachite.Votes

/-! What the outputs of `apply_vote` stand for, and the evidence it keeps.

Every output is justified by the tallies of the vote's round after the vote is
counted, and an output other than `SkipRound` is returned at most once for a round:
`emitted_outputs` only grows, and an output is returned only when it is not there.
A vote that conflicts with the validator's recorded vote of the same round and type
changes nothing but the evidence, and the evidence of each validator is exactly the
list of such conflicts, each paired with the validator's first recorded vote. -/

variable {C : Context}

/-- What an output says about the tallies of the vote's round. -/
def Justified (params : ThresholdParams) (totalWeight : Nat) (vote : Vote C) (round : Round)
    (perRound : PerRound C) : Output C.ValueId → Prop
  | .polkaValue value =>
      vote.voteType = .prevote ∧ vote.value = .val value ∧
        params.quorum.isMet (perRound.votes.getWeight .prevote (.val value)) totalWeight
  | .polkaNil =>
      vote.voteType = .prevote ∧ params.quorum.isMet (perRound.votes.getWeight .prevote .nil) totalWeight
  | .polkaAny =>
      vote.voteType = .prevote ∧ params.quorum.isMet (perRound.votes.weightSum .prevote) totalWeight
  | .precommitValue value =>
      vote.voteType = .precommit ∧ vote.value = .val value ∧
        params.quorum.isMet (perRound.votes.getWeight .precommit (.val value)) totalWeight
  | .precommitAny =>
      vote.voteType = .precommit ∧
        (params.quorum.isMet (perRound.votes.weightSum .precommit) totalWeight ∨
          params.quorum.isMet (perRound.votes.getWeight .precommit .nil) totalWeight)
  | .skipRound skipped =>
      skipped = vote.round ∧ round < vote.round ∧
        params.honest.isMet perRound.addressesWeights.sum totalWeight

/-- The output a threshold maps to is justified by the count it was computed from. -/
theorem justified_of_threshold (params : ThresholdParams) (totalWeight : Nat) (vote : Vote C)
    (round : Round) (perRound : PerRound C) {output : Output C.ValueId}
    (mapped : thresholdToOutput vote.voteType
      (computeThreshold vote.voteType perRound vote.value params totalWeight) = some output) :
    Justified params totalWeight vote round perRound output := by
  unfold computeThreshold at mapped
  cases kind : vote.voteType <;> cases value : vote.value <;> rw [kind, value] at mapped <;>
    dsimp only at mapped <;> split_ifs at mapped with met metAny <;>
    simp only [thresholdToOutput, Option.some.injEq, reduceCtorEq] at mapped <;> subst mapped <;>
    simp_all [Justified]

/-- Skips are the one output `apply_vote` does not deduplicate. -/
def Output.isSkipRound {α : Type} : Output α → Bool
  | .skipRound _ => true
  | _ => false

namespace VoteKeeper

/-- Everything one `apply_vote` can do: open the vote's round; then stop there for an
unknown validator, record evidence of a conflict, or record the vote and return a skip,
an output not yet emitted for the round, or nothing. -/
theorem applyVote_cases (keeper : VoteKeeper C) (vote : SignedVote C) (round : Round) :
    let stored := (keeper.getPerRound vote.message.round).getD .new
    let opened := keeper.setPerRound vote.message.round stored
    (keeper.validatorSet.getByAddress vote.message.validatorAddress = none ∧
        keeper.applyVote vote round = (opened, none)) ∨
      (∃ validator existing,
        keeper.validatorSet.getByAddress vote.message.validatorAddress = some validator ∧
        stored.getVote vote.message.voteType vote.message.validatorAddress = some existing ∧
        existing.message.value ≠ vote.message.value ∧
        keeper.applyVote vote round =
          ({ opened with evidence :=
              keeper.evidence.add vote.message.validatorAddress existing vote }, none)) ∨
      ∃ validator recorded,
        keeper.validatorSet.getByAddress vote.message.validatorAddress = some validator ∧
        stored.add vote validator.votingPower = .ok recorded ∧
        ((round < vote.message.round ∧
            keeper.thresholdParams.honest.isMet recorded.addressesWeights.sum keeper.totalWeight ∧
            keeper.applyVote vote round =
              (opened.setPerRound vote.message.round
                (recorded.emit (.skipRound vote.message.round)),
                some (.skipRound vote.message.round))) ∨
          (∃ output, thresholdToOutput vote.message.voteType
              (computeThreshold vote.message.voteType recorded vote.message.value
                keeper.thresholdParams keeper.totalWeight) = some output ∧
            output ∉ recorded.emittedOutputs ∧
            keeper.applyVote vote round =
              (opened.setPerRound vote.message.round (recorded.emit output), some output)) ∨
          keeper.applyVote vote round = (opened.setPerRound vote.message.round recorded, none)) := by
  intro stored opened
  cases found : keeper.validatorSet.getByAddress vote.message.validatorAddress with
  | none => exact Or.inl ⟨rfl, by simp [applyVote, found, opened, stored]⟩
  | some validator =>
      cases added : stored.add vote validator.votingPower with
      | error conflict =>
          -- the only error is a conflict with the recorded vote of the validator and type
          obtain ⟨existing, conflicting⟩ := conflict
          have rejected := added
          simp only [PerRound.add] at rejected
          split at rejected
          · next recordedVote conflictingFound =>
            obtain ⟨held, different⟩ := Option.filter_eq_some_iff.mp conflictingFound
            cases rejected
            refine Or.inr (Or.inl ⟨validator, existing, rfl, held, of_decide_eq_true different, ?_⟩)
            simp only [stored] at added
            simp [applyVote, found, added, opened, stored, setPerRound]
          · cases rejected
      | ok recorded =>
          refine Or.inr (Or.inr ⟨validator, recorded, rfl, added, ?_⟩)
          simp only [stored] at added
          simp only [applyVote, setPerRound_validatorSet, found, added]
          split
          · next skip => exact Or.inl ⟨skip.1, skip.2, rfl⟩
          · split
            · next output mapped =>
              split
              · exact Or.inr (Or.inr rfl)
              · next fresh => exact Or.inr (Or.inl ⟨output, mapped, fresh, rfl⟩)
            · exact Or.inr (Or.inr rfl)

/-- A sequence of `apply_vote` calls, each with the round it was made at; each output is
returned with the round of its vote. -/
def applyVotes (keeper : VoteKeeper C) :
    List (SignedVote C × Round) → VoteKeeper C × List (Round × Option (Output C.ValueId))
  | [] => (keeper, [])
  | (vote, round) :: calls =>
      let applied := keeper.applyVote vote round
      let rest := applied.1.applyVotes calls
      (rest.1, (vote.message.round, applied.2) :: rest.2)

/-- The outputs emitted so far for a round. -/
def emittedAt (keeper : VoteKeeper C) (round : Round) : List (Output C.ValueId) :=
  ((keeper.getPerRound round).getD .new).emittedOutputs

theorem emittedAt_setPerRound (keeper : VoteKeeper C) (round wanted : Round) (perRound : PerRound C) :
    (keeper.setPerRound round perRound).emittedAt wanted =
      if round = wanted then perRound.emittedOutputs else keeper.emittedAt wanted := by
  rw [emittedAt, getPerRound_setPerRound]
  split <;> rfl

theorem mem_emit_emittedOutputs (perRound : PerRound C) (output other : Output C.ValueId) :
    other ∈ (perRound.emit output).emittedOutputs ↔ other ∈ perRound.emittedOutputs ∨ other = output := by
  unfold PerRound.emit
  split
  · next present =>
    constructor
    · exact Or.inl
    · rintro (held | rfl)
      · exact held
      · exact present
  · simp

theorem getPerRound_setPerRound_self (keeper : VoteKeeper C) (round : Round) (perRound : PerRound C) :
    (keeper.setPerRound round perRound).getPerRound round = some perRound := by
  rw [getPerRound_setPerRound, if_pos rfl]

/-- Emitting keeps the tallies an output is justified by. -/
theorem justified_emit (params : ThresholdParams) (totalWeight : Nat) (vote : Vote C)
    (round : Round) (perRound : PerRound C) (emitted output : Output C.ValueId) :
    Justified params totalWeight vote round (perRound.emit emitted) output ↔
      Justified params totalWeight vote round perRound output := by
  cases output <;> simp [Justified]

/-- Every output of `apply_vote` is justified by the tallies of the vote's round once the
vote is counted. -/
theorem applyVote_justified (keeper : VoteKeeper C) (vote : SignedVote C) (round : Round)
    {output : Output C.ValueId} (returned : (keeper.applyVote vote round).2 = some output) :
    ∃ perRound, (keeper.applyVote vote round).1.getPerRound vote.message.round = some perRound ∧
      Justified keeper.thresholdParams keeper.totalWeight vote.message round perRound output := by
  rcases applyVote_cases keeper vote round with
    ⟨-, same⟩ | ⟨_, _, -, -, -, same⟩ | ⟨validator, recorded, -, -, recordedCase⟩
  · rw [same] at returned
    cases returned
  · rw [same] at returned
    cases returned
  rcases recordedCase with ⟨later, honest, same⟩ | ⟨mapped, threshold, -, same⟩ | same <;>
    rw [same] at returned ⊢ <;> cases returned
  · -- the skip is justified by the weights of the round it names
    refine ⟨_, getPerRound_setPerRound_self _ _ _, ?_⟩
    exact ⟨rfl, later, by simpa using honest⟩
  · refine ⟨_, getPerRound_setPerRound_self _ _ _, ?_⟩
    rw [justified_emit]
    exact justified_of_threshold _ _ _ round recorded threshold

/-- `apply_vote` removes no emitted output of any round. -/
theorem emittedAt_applyVote (keeper : VoteKeeper C) (vote : SignedVote C) (round wanted : Round)
    {output : Output C.ValueId} (held : output ∈ keeper.emittedAt wanted) :
    output ∈ (keeper.applyVote vote round).1.emittedAt wanted := by
  have opened : (keeper.setPerRound vote.message.round
      ((keeper.getPerRound vote.message.round).getD .new)).emittedAt wanted = keeper.emittedAt wanted := by
    rw [emittedAt_setPerRound]
    split
    · next same => rw [emittedAt, same]
    · rfl
  rcases applyVote_cases keeper vote round with
    ⟨-, same⟩ | ⟨_, _, -, -, -, same⟩ | ⟨validator, recorded, -, added, recordedCase⟩
  · rwa [same, opened]
  · rw [same]
    exact opened ▸ held
  have stored := (PerRound.add_eq_ok added).2.2.2
  -- the vote's round now holds the recorded entry, whose outputs are the stored ones
  rcases recordedCase with ⟨-, -, same⟩ | ⟨emitted, -, -, same⟩ | same <;>
    rw [same, emittedAt_setPerRound] <;> split <;>
    first
      | rwa [opened]
      | next sameRound =>
        subst sameRound
        first
          | exact (mem_emit_emittedOutputs _ _ _).mpr (Or.inl (stored ▸ held))
          | exact stored ▸ held

/-- A new output, other than a skip, was not emitted for the vote's round before the call,
and is after it. -/
theorem applyVote_fresh (keeper : VoteKeeper C) (vote : SignedVote C) (round : Round)
    {output : Output C.ValueId} (returned : (keeper.applyVote vote round).2 = some output)
    (notSkip : output.isSkipRound = false) :
    output ∉ keeper.emittedAt vote.message.round ∧
      output ∈ (keeper.applyVote vote round).1.emittedAt vote.message.round := by
  rcases applyVote_cases keeper vote round with
    ⟨-, same⟩ | ⟨_, _, -, -, -, same⟩ | ⟨validator, recorded, -, added, recordedCase⟩
  · rw [same] at returned
    cases returned
  · rw [same] at returned
    cases returned
  have stored := (PerRound.add_eq_ok added).2.2.2
  rcases recordedCase with ⟨-, -, same⟩ | ⟨emitted, -, fresh, same⟩ | same <;>
    rw [same] at returned ⊢ <;> cases returned
  · cases notSkip
  · refine ⟨fun held => fresh (stored ▸ held), ?_⟩
    rw [emittedAt_setPerRound, if_pos rfl]
    exact (mem_emit_emittedOutputs _ _ _).mpr (Or.inr rfl)

/-- The outputs of a run other than skips, with the rounds of their votes. -/
def deduplicated (returned : List (Round × Option (Output C.ValueId))) : List (Round × Output C.ValueId) :=
  returned.filterMap fun entry =>
    entry.2.bind fun output => if output.isSkipRound then none else some (entry.1, output)

/-- Over any run the outputs other than skips are distinct per round, and none was emitted
for its round before the run. -/
theorem applyVotes_fresh (keeper : VoteKeeper C) (calls : List (SignedVote C × Round)) :
    (deduplicated (keeper.applyVotes calls).2).Nodup ∧
      ∀ entry ∈ deduplicated (keeper.applyVotes calls).2, entry.2 ∉ keeper.emittedAt entry.1 := by
  induction calls generalizing keeper with
  | nil => simp [applyVotes, deduplicated]
  | cons call calls ih =>
      obtain ⟨vote, round⟩ := call
      obtain ⟨distinct, fresh⟩ := ih (keeper.applyVote vote round).1
      -- an output new after the first call was not there before it
      have earlier : ∀ entry ∈ deduplicated ((keeper.applyVote vote round).1.applyVotes calls).2,
          entry.2 ∉ keeper.emittedAt entry.1 :=
        fun entry member held => fresh entry member (emittedAt_applyVote _ _ _ _ held)
      simp only [applyVotes, deduplicated, List.filterMap_cons] at distinct fresh earlier ⊢
      cases returned : (keeper.applyVote vote round).2 with
      | none => exact ⟨distinct, earlier⟩
      | some output =>
          cases skip : output.isSkipRound with
          | true => simpa [skip] using And.intro distinct earlier
          | false =>
              obtain ⟨notBefore, after⟩ := applyVote_fresh keeper vote round returned skip
              simp only [Option.bind_some, skip, Bool.false_eq_true, if_false, List.nodup_cons,
                List.mem_cons, forall_eq_or_imp]
              exact ⟨⟨fun member => fresh _ member after, distinct⟩, notBefore, earlier⟩

/-- The outputs of the vote keeper are sound and, but for skips, not repeated: every output
of `apply_vote` is justified by the tallies of the vote's round after the vote is counted,
and over any sequence of calls no output other than `SkipRound` comes twice for a round. -/
theorem outputs_justified_and_not_repeated (keeper : VoteKeeper C)
    (calls : List (SignedVote C × Round)) :
    (∀ vote round output, (keeper.applyVote vote round).2 = some output →
      ∃ perRound, (keeper.applyVote vote round).1.getPerRound vote.message.round = some perRound ∧
        Justified keeper.thresholdParams keeper.totalWeight vote.message round perRound output) ∧
      (deduplicated (keeper.applyVotes calls).2).Nodup :=
  ⟨fun vote round _ returned => applyVote_justified keeper vote round returned,
    (applyVotes_fresh keeper calls).1⟩

/-! ### Evidence -/

/-- The first vote of a known validator for a round, type and address in a history of
applied votes: the vote the keeper records first, since a later one is either recorded
after it or rejected as a conflict. -/
def firstRecorded (set : ValidatorSet C) (history : List (SignedVote C)) (round : Round)
    (voteType : VoteType) (address : C.Address) : Option (SignedVote C) :=
  history.find? fun vote =>
    (set.getByAddress vote.message.validatorAddress).isSome && decide (vote.message.round = round) &&
      decide (vote.message.voteType = voteType) && decide (vote.message.validatorAddress = address)

/-- The evidence one applied vote calls for against an address, in a history: the pair of
the first recorded vote of its round and type with it, when their values differ. -/
def conflictOf (set : ValidatorSet C) (history : List (SignedVote C)) (address : C.Address)
    (vote : SignedVote C) : Option (SignedVote C × SignedVote C) :=
  if vote.message.validatorAddress = address then
    match firstRecorded set history vote.message.round vote.message.voteType address with
    | some first => if first.message.value ≠ vote.message.value then some (first, vote) else none
    | none => none
  else none

/-- The evidence a history of applied votes calls for against an address, in its order. -/
def expectedEvidence (set : ValidatorSet C) (history : List (SignedVote C)) (address : C.Address) :
    List (SignedVote C × SignedVote C) :=
  history.filterMap (conflictOf set history address)

theorem firstRecorded_append (set : ValidatorSet C) (history : List (SignedVote C))
    (vote : SignedVote C) (round : Round) (voteType : VoteType) (address : C.Address) :
    firstRecorded set (history ++ [vote]) round voteType address =
      (firstRecorded set history round voteType address).or
        (if (set.getByAddress vote.message.validatorAddress).isSome ∧ vote.message.round = round ∧
            vote.message.voteType = voteType ∧ vote.message.validatorAddress = address then some vote
          else none) := by
  simp only [firstRecorded, List.find?_append, List.find?_singleton]
  congr 1
  simp [Bool.and_assoc]

theorem getVote_of_received {perRound recorded : PerRound C} {vote : SignedVote C}
    (received : recorded.receivedVotes = perRound.receivedVotes ++ [vote]) (voteType : VoteType)
    (address : C.Address) :
    recorded.getVote voteType address =
      (perRound.getVote voteType address).or
        (if vote.message.voteType = voteType ∧ vote.message.validatorAddress = address then some vote
          else none) := by
  simp only [PerRound.getVote, received, List.find?_append, List.find?_singleton]
  congr 1
  simp

/-- A later vote does not change the evidence an earlier one calls for. -/
theorem conflictOf_append (set : ValidatorSet C) (history : List (SignedVote C))
    (later : SignedVote C) (address : C.Address) {vote : SignedVote C} (earlier : vote ∈ history) :
    conflictOf set (history ++ [later]) address vote = conflictOf set history address vote := by
  unfold conflictOf
  split
  · next sameAddress =>
    rw [firstRecorded_append]
    cases first : firstRecorded set history vote.message.round vote.message.voteType address with
    | some first => rfl
    | none =>
        -- no recorded vote for the key of an earlier vote: its validator is unknown
        have unknown := List.find?_eq_none.mp first vote earlier
        simp only [sameAddress, decide_true, Bool.and_true, Bool.not_eq_true,
          Option.isSome_eq_false_iff, Option.isNone_iff_eq_none] at unknown
        rw [if_neg (by rintro ⟨known, -, -, rfl⟩; simp [unknown] at known)]
        rfl
  · rfl

theorem expectedEvidence_append (set : ValidatorSet C) (history : List (SignedVote C))
    (vote : SignedVote C) (address : C.Address) :
    expectedEvidence set (history ++ [vote]) address =
      expectedEvidence set history address ++
        (conflictOf set (history ++ [vote]) address vote).toList := by
  rw [expectedEvidence, List.filterMap_append, List.filterMap_congr
    (fun earlier member => conflictOf_append set history vote address member)]
  cases conflict : conflictOf set (history ++ [vote]) address vote <;> simp [expectedEvidence, conflict]

theorem firstRecorded_of_unknown (set : ValidatorSet C) (history : List (SignedVote C))
    (round : Round) (voteType : VoteType) {address : C.Address}
    (unknown : set.getByAddress address = none) :
    firstRecorded set history round voteType address = none := by
  refine List.find?_eq_none.mpr fun vote _ => ?_
  by_cases same : vote.message.validatorAddress = address
  · simp [same, unknown]
  · simp [same]

theorem conflictOf_of_unknown (set : ValidatorSet C) (history : List (SignedVote C))
    (address : C.Address) {vote : SignedVote C}
    (unknown : set.getByAddress vote.message.validatorAddress = none) :
    conflictOf set history address vote = none := by
  unfold conflictOf
  split
  · next same => rw [firstRecorded_of_unknown set history _ _ (same ▸ unknown)]
  · rfl

theorem getD_setPerRound (keeper : VoteKeeper C) (round wanted : Round) (perRound : PerRound C) :
    ((keeper.setPerRound round perRound).getPerRound wanted).getD .new =
      if round = wanted then perRound else (keeper.getPerRound wanted).getD .new := by
  rw [getPerRound_setPerRound]
  split <;> rfl

/-- Opening the vote's round changes no round's record. -/
theorem getD_opened (keeper : VoteKeeper C) (round wanted : Round) :
    ((keeper.setPerRound round ((keeper.getPerRound round).getD .new)).getPerRound wanted).getD .new =
      (keeper.getPerRound wanted).getD .new := by
  rw [getD_setPerRound]
  split
  · next same => rw [same]
  · rfl

theorem evidence_add_getD {α β : Type} [DecidableEq α] (evidence : EvidenceMap α β)
    (address wanted : α) (existing vote : β) :
    (KeyMap.get? (evidence.add address existing vote).map wanted).getD [] =
      if address = wanted then (KeyMap.get? evidence.map wanted).getD [] ++ [(existing, vote)]
      else (KeyMap.get? evidence.map wanted).getD [] := by
  unfold EvidenceMap.add
  by_cases same : address = wanted
  · subst same
    cases KeyMap.get? evidence.map address <;> simp
  · cases KeyMap.get? evidence.map address <;> simp [KeyMap.get?_insert, same]

/-- A recorded vote conflicts with no earlier vote of its validator and type. -/
theorem PerRound.agrees_of_add_ok {perRound recorded : PerRound C} {vote : SignedVote C}
    {weight : Nat} (added : perRound.add vote weight = .ok recorded) {existing : SignedVote C}
    (held : perRound.getVote vote.message.voteType vote.message.validatorAddress = some existing) :
    existing.message.value = vote.message.value := by
  unfold PerRound.add at added
  dsimp only at added
  split at added
  · cases added
  · next noConflict =>
    rw [held] at noConflict
    by_contra different
    simp [Option.filter, different] at noConflict

/-- What the keeper holds after a history of applied votes: its validator set, for each
round, type and address the first recorded vote, and the evidence the history calls for. -/
structure EvidenceExact (set : ValidatorSet C) (history : List (SignedVote C))
    (keeper : VoteKeeper C) : Prop where
  validatorSet : keeper.validatorSet = set
  recorded : ∀ round voteType address,
    ((keeper.getPerRound round).getD .new).getVote voteType address =
      firstRecorded set history round voteType address
  evidence : ∀ address,
    (KeyMap.get? keeper.evidence.map address).getD [] = expectedEvidence set history address

theorem evidenceExact_new (set : ValidatorSet C) (params : ThresholdParams) :
    EvidenceExact set [] (new set params) where
  validatorSet := rfl
  recorded _ _ _ := rfl
  evidence _ := rfl

/-- One applied vote keeps the keeper's records and evidence those of its history. -/
theorem EvidenceExact.applyVote {set : ValidatorSet C} {history : List (SignedVote C)}
    {keeper : VoteKeeper C} (exact : EvidenceExact set history keeper) (vote : SignedVote C)
    (round : Round) : EvidenceExact set (history ++ [vote]) (keeper.applyVote vote round).1 := by
  have validatorSet := exact.validatorSet
  have sameSet : (keeper.applyVote vote round).1.validatorSet = set := by
    rcases applyVote_keeper keeper vote round with same | ⟨_, same⟩ | ⟨_, _, _, -, -, -, -, -, same⟩ <;>
      rw [same] <;> exact validatorSet
  rcases applyVote_cases keeper vote round with
    ⟨unknown, same⟩ | ⟨validator, existing, found, held, different, same⟩ |
      ⟨validator, recorded, found, added, recordedCase⟩
  · -- an unknown validator's vote is neither recorded nor evidence
    rw [validatorSet] at unknown
    have rounds : ∀ wanted, ((keeper.applyVote vote round).1.getPerRound wanted).getD .new =
        (keeper.getPerRound wanted).getD .new := fun wanted => by
      rw [same]
      exact getD_opened keeper _ wanted
    have evidence : (keeper.applyVote vote round).1.evidence = keeper.evidence := by rw [same]; rfl
    refine ⟨sameSet, fun round' voteType address => ?_, fun address => ?_⟩
    · have notKnown : ¬((set.getByAddress vote.message.validatorAddress).isSome ∧
          vote.message.round = round' ∧ vote.message.voteType = voteType ∧
          vote.message.validatorAddress = address) := by simp [unknown]
      rw [rounds, exact.recorded, firstRecorded_append, if_neg notKnown, Option.or_none]
    · rw [evidence, exact.evidence, expectedEvidence_append, conflictOf_of_unknown set _ _ unknown]
      simp
  · -- a conflict: the first recorded vote is the one held, and the pair is appended
    rw [validatorSet] at found
    have first : firstRecorded set history vote.message.round vote.message.voteType
        vote.message.validatorAddress = some existing := by
      rw [← exact.recorded]
      exact held
    have rounds : ∀ wanted, ((keeper.applyVote vote round).1.getPerRound wanted).getD .new =
        (keeper.getPerRound wanted).getD .new := fun wanted => by
      rw [same]
      exact getD_opened keeper _ wanted
    have evidence : (keeper.applyVote vote round).1.evidence =
        keeper.evidence.add vote.message.validatorAddress existing vote := by rw [same]
    refine ⟨sameSet, fun round' voteType address => ?_, fun address => ?_⟩
    · rw [rounds, exact.recorded, firstRecorded_append]
      split
      · next key =>
        obtain ⟨-, rfl, rfl, rfl⟩ := key
        rw [first]
        rfl
      · rw [Option.or_none]
    · rw [evidence, evidence_add_getD, exact.evidence, expectedEvidence_append]
      unfold conflictOf
      split
      · next sameAddress =>
        subst sameAddress
        rw [firstRecorded_append, first]
        simp [different]
      · simp
  · -- a recorded vote: the round's record gains it, and it is no evidence
    rw [validatorSet] at found
    have received := (PerRound.add_eq_ok added).2.2.1
    obtain ⟨updated, updatedReceived, same⟩ : ∃ updated : PerRound C,
        updated.receivedVotes = recorded.receivedVotes ∧
        (keeper.applyVote vote round).1 =
          (keeper.setPerRound vote.message.round
            ((keeper.getPerRound vote.message.round).getD .new)).setPerRound vote.message.round updated := by
      rcases recordedCase with ⟨-, -, same⟩ | ⟨_, -, -, same⟩ | same <;> rw [same] <;>
        exact ⟨_, by simp, rfl⟩
    have known : (set.getByAddress vote.message.validatorAddress).isSome := by simp [found]
    refine ⟨sameSet, fun round' voteType address => ?_, fun address => ?_⟩
    · rw [same, getD_setPerRound, firstRecorded_append]
      split
      · next sameRound =>
        subst sameRound
        rw [getVote_of_received (updatedReceived.trans received), exact.recorded]
        congr 1
        simp [known]
      · next otherRound =>
        rw [getD_opened, exact.recorded, if_neg (fun key => otherRound key.2.1), Option.or_none]
    · rw [same]
      change (KeyMap.get? keeper.evidence.map address).getD [] = _
      rw [exact.evidence, expectedEvidence_append]
      suffices agreed : conflictOf set (history ++ [vote]) address vote = none by simp [agreed]
      unfold conflictOf
      split
      · next sameAddress =>
        subst sameAddress
        rw [firstRecorded_append, if_pos ⟨known, rfl, rfl, rfl⟩]
        cases first : firstRecorded set history vote.message.round vote.message.voteType
            vote.message.validatorAddress with
        | none => simp
        | some existing =>
            have held : ((keeper.getPerRound vote.message.round).getD .new).getVote
                vote.message.voteType vote.message.validatorAddress = some existing := by
              rw [exact.recorded, first]
            simp [PerRound.agrees_of_add_ok added held]
      · rfl

theorem EvidenceExact.applyVotes {set : ValidatorSet C} {history : List (SignedVote C)}
    {keeper : VoteKeeper C} (exact : EvidenceExact set history keeper)
    (calls : List (SignedVote C × Round)) :
    EvidenceExact set (history ++ calls.map Prod.fst) (keeper.applyVotes calls).1 := by
  induction calls generalizing history keeper with
  | nil =>
    rw [List.map_nil, List.append_nil]
    exact exact
  | cons call calls ih =>
      have next := ih (exact.applyVote call.1 call.2)
      rw [List.append_assoc] at next
      exact next

/-- A vote that conflicts with the recorded vote of its validator, round and type is only
evidence: the keeper's rounds stay as they were and nothing is output. -/
theorem applyVote_of_conflict (keeper : VoteKeeper C) (vote : SignedVote C) (round : Round)
    {validator : Validator C} {existing : SignedVote C}
    (found : keeper.validatorSet.getByAddress vote.message.validatorAddress = some validator)
    (held : ((keeper.getPerRound vote.message.round).getD .new).getVote vote.message.voteType
      vote.message.validatorAddress = some existing)
    (different : existing.message.value ≠ vote.message.value) :
    keeper.applyVote vote round =
      ({ keeper with evidence := keeper.evidence.add vote.message.validatorAddress existing vote },
        none) := by
  -- the round already has a record, since a new one holds no vote
  obtain ⟨stored, storedFound⟩ : ∃ stored, keeper.getPerRound vote.message.round = some stored := by
    cases found : keeper.getPerRound vote.message.round with
    | none => rw [found] at held; cases held
    | some stored => exact ⟨stored, rfl⟩
  have opened : keeper.setPerRound vote.message.round
      ((keeper.getPerRound vote.message.round).getD .new) = keeper := by
    rw [storedFound, Option.getD_some, setPerRound, KeyMap.insert_of_get?_eq_some storedFound]
  rcases applyVote_cases keeper vote round with
    ⟨unknown, -⟩ | ⟨_, existing', -, held', -, same⟩ | ⟨_, recorded, -, added, -⟩
  · rw [found] at unknown
    cases unknown
  · rw [held] at held'
    cases held'
    rw [same, opened]
  · exact absurd (PerRound.agrees_of_add_ok added held) different

/-- The evidence of equivocation is exact: after any sequence of `apply_vote` calls the
evidence against each address is, in arrival order, the votes of that validator that
differ in value from its first recorded vote of the same round and type, each paired with
that vote; and such a vote changes nothing else in the keeper and outputs nothing. -/
theorem evidence_exact (set : ValidatorSet C) (params : ThresholdParams)
    (calls : List (SignedVote C × Round)) :
    (∀ address, (KeyMap.get? ((new set params).applyVotes calls).1.evidence.map address).getD [] =
        expectedEvidence set (calls.map Prod.fst) address) ∧
      ∀ (keeper : VoteKeeper C) vote round (validator : Validator C) existing,
        keeper.validatorSet.getByAddress vote.message.validatorAddress = some validator →
        ((keeper.getPerRound vote.message.round).getD .new).getVote vote.message.voteType
          vote.message.validatorAddress = some existing →
        existing.message.value ≠ vote.message.value →
        keeper.applyVote vote round =
          ({ keeper with evidence := keeper.evidence.add vote.message.validatorAddress existing vote },
            none) :=
  ⟨((evidenceExact_new set params).applyVotes calls).evidence,
    fun keeper vote round _ _ found held different =>
      applyVote_of_conflict keeper vote round found held different⟩

end VoteKeeper

end Malachite.Votes
