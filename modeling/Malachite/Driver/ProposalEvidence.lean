import Malachite.Driver.Decide
import Malachite.VoteKeeper.Outputs

namespace Malachite.Proposals

/-! Evidence of equivocating proposers, as the proposal keeper gathers it
(`store_proposal`, `PerRound::add` and `EvidenceMap::add` of `proposal_keeper.rs`).

A round stores a signed proposal unless it already holds that very signed proposal, and once it
holds another, the pair of the round's first proposal and the new one is appended to the
evidence under the new proposal's proposer.  Equality is that of signed proposals: two proposals
of one value that differ in their POL round or their signature are a conflict, although the doc
of `EvidenceMap::add` speaks of different values.

What the keeper holds is then a function of the proposals it was given: each round holds its
distinct proposals in the order they first came, each with the validity it first came with, and
the evidence against an address is one pair for each of its distinct proposals that was not the
first of its round, in the order they came.  The source panics when one round receives
proposals from two validators, which its callers rule out by checking the proposer first; a run
of `store_proposal` stops there, and it does exactly when two proposals of one round came from
different validators. -/

variable {C : Context}

/-- The first of the stored proposals of a round. -/
def firstOfRound (stored : List (SignedProposal C)) (round : Round) :
    Option (SignedProposal C) :=
  stored.find? fun proposal => proposal.message.round = round

/-- The evidence a stored proposal calls for: the first proposal of its round and itself, when
that first proposal is another one. -/
def conflictOf (stored : List (SignedProposal C)) (proposal : SignedProposal C) :
    Option (SignedProposal C × SignedProposal C) :=
  (firstOfRound stored proposal.message.round).bind fun first =>
    if first = proposal then none else some (first, proposal)

/-- The evidence against `address` that the stored proposals call for. -/
def expectedEvidence (stored : List (SignedProposal C)) (address : C.Address) :
    List (SignedProposal C × SignedProposal C) :=
  (stored.eraseDups.filter fun proposal => proposal.message.validatorAddress = address).filterMap
    (conflictOf stored)

theorem eraseDups_append_singleton {α : Type} [DecidableEq α] (items : List α) (item : α) :
    (items ++ [item]).eraseDups = if item ∈ items then items.eraseDups else items.eraseDups ++ [item] := by
  rw [List.eraseDups_append]
  by_cases member : item ∈ items <;> simp [List.removeAll, List.eraseDups_cons, member]

theorem head?_eraseDups {α : Type} [DecidableEq α] (items : List α) :
    items.eraseDups.head? = items.head? := by
  cases items <;> simp [List.eraseDups_cons]

/-- A later proposal does not change the first proposal of a round that already has one. -/
theorem firstOfRound_append_of_mem {stored : List (SignedProposal C)} {proposal : SignedProposal C}
    (member : proposal ∈ stored) (later : List (SignedProposal C)) :
    firstOfRound (stored ++ later) proposal.message.round =
      firstOfRound stored proposal.message.round := by
  unfold firstOfRound
  obtain ⟨first, found⟩ : ∃ first, stored.find? (fun other => other.message.round =
      proposal.message.round) = some first :=
    Option.isSome_iff_exists.mp (List.find?_isSome.mpr ⟨proposal, member, by simp⟩)
  rw [List.find?_append, found, Option.some_or]

theorem conflictOf_append_of_mem {stored : List (SignedProposal C)} {proposal : SignedProposal C}
    (member : proposal ∈ stored) (later : List (SignedProposal C)) :
    conflictOf (stored ++ later) proposal = conflictOf stored proposal := by
  rw [conflictOf, firstOfRound_append_of_mem member, conflictOf]

/-- A proposal seen for the first time conflicts with the first proposal of its round, if any. -/
theorem conflictOf_append_new {stored : List (SignedProposal C)} {proposal : SignedProposal C}
    (fresh : proposal ∉ stored) :
    conflictOf (stored ++ [proposal]) proposal =
      (firstOfRound stored proposal.message.round).map fun first => (first, proposal) := by
  unfold conflictOf firstOfRound
  rw [List.find?_append, List.find?_singleton, if_pos (by simp)]
  cases found : stored.find? fun other => other.message.round = proposal.message.round with
  | none => simp
  | some first =>
    -- the first proposal of the round is an earlier one, so not the new one
    have earlier : first ≠ proposal := fun same => fresh (same ▸ List.mem_of_find?_eq_some found)
    simp [earlier]

theorem expectedEvidence_append (stored : List (SignedProposal C)) (proposal : SignedProposal C)
    (address : C.Address) :
    expectedEvidence (stored ++ [proposal]) address =
      expectedEvidence stored address ++
        if proposal ∉ stored ∧ proposal.message.validatorAddress = address then
          ((firstOfRound stored proposal.message.round).map fun first => (first, proposal)).toList
        else [] := by
  have earlier : ∀ other ∈ stored.eraseDups.filter (fun other =>
      other.message.validatorAddress = address),
      conflictOf (stored ++ [proposal]) other = conflictOf stored other := fun other member =>
    conflictOf_append_of_mem (List.mem_eraseDups.mp (List.mem_filter.mp member).1) _
  unfold expectedEvidence
  rw [eraseDups_append_singleton]
  by_cases member : proposal ∈ stored
  · rw [if_pos member, List.filterMap_congr earlier, if_neg (fun fresh => fresh.1 member),
      List.append_nil]
  · rw [if_neg member, List.filter_append, List.filterMap_append, List.filterMap_congr earlier]
    by_cases same : proposal.message.validatorAddress = address
    · rw [if_pos ⟨member, same⟩, List.filter_singleton, decide_eq_true same, cond_true,
        List.filterMap_cons, conflictOf_append_new member]
      cases firstOfRound stored proposal.message.round <;> rfl
    · simp [same]

namespace PerRound

/-- The test of `PerRound::add` for an exact duplicate is membership among the held proposals. -/
theorem any_eq_true_iff_mem (perRound : PerRound C) (proposal : SignedProposal C) :
    perRound.proposals.any (fun entry => entry.1 = proposal) = true ↔
      proposal ∈ perRound.proposals.map Prod.fst := by
  simp

/-- `add` on a proposal the round does not hold yet stores it, and reports it against the
round's first proposal when there is one. -/
theorem add_eq (perRound : PerRound C) (proposal : SignedProposal C) (validity : Validity) :
    perRound.add proposal validity =
      if proposal ∈ perRound.proposals.map Prod.fst then (perRound, .ok ())
      else (⟨perRound.proposals ++ [(proposal, validity)]⟩,
        match perRound.proposals.head? with
        | none => .ok ()
        | some first => .error (.conflictingProposal first.1 proposal)) := by
  have present := perRound.any_eq_true_iff_mem proposal
  unfold PerRound.add
  by_cases member : proposal ∈ perRound.proposals.map Prod.fst
  · rw [if_pos (present.mpr member), if_pos member]
  · rw [if_neg (fun held => member (present.mp held)), if_neg member]
    cases perRound.proposals <;> rfl

theorem add_proposals_eq (perRound : PerRound C) (proposal : SignedProposal C)
    (validity : Validity) :
    (perRound.add proposal validity).1.proposals =
      if proposal ∈ perRound.proposals.map Prod.fst then perRound.proposals
      else perRound.proposals ++ [(proposal, validity)] := by
  rw [add_eq]
  split <;> rfl

/-- The pair a round reports: its first proposal and the new one, when the new one is another
proposal and the round has one. -/
theorem add_result (perRound : PerRound C) (proposal : SignedProposal C) (validity : Validity) :
    (perRound.add proposal validity).2 =
      if proposal ∈ perRound.proposals.map Prod.fst then .ok ()
      else match perRound.proposals.head? with
        | none => .ok ()
        | some first => .error (.conflictingProposal first.1 proposal) := by
  rw [add_eq]
  split <;> rfl

/-- The check of `PerRound::add` that panics: a proposal the round does not hold yet, from
another validator than the round's first proposal. -/
def panics (perRound : PerRound C) (proposal : SignedProposal C) : Bool :=
  !(perRound.proposals.any fun entry => entry.1 = proposal) &&
    perRound.proposals.head?.any fun first =>
      first.1.message.validatorAddress != proposal.message.validatorAddress

end PerRound

namespace ProposalKeeper

/-- What `store_proposal` appends to the evidence against an address: the pair of the round's
first proposal and the new one, when the new one is the address's, is not held yet, and the round
holds a proposal. -/
theorem evidence_storeProposal (keeper : ProposalKeeper C) (proposal : SignedProposal C)
    (validity : Validity) (address : C.Address) :
    (KeyMap.get? (keeper.storeProposal proposal validity).evidence.map address).getD [] =
      (KeyMap.get? keeper.evidence.map address).getD [] ++
        let held := keeper.getProposalsAndValiditiesForRound proposal.message.round
        if proposal ∉ held.map Prod.fst ∧ proposal.message.validatorAddress = address then
          (held.head?.map fun first => (first.1, proposal)).toList
        else [] := by
  rw [getProposalsAndValiditiesForRound_eq]
  unfold storeProposal
  dsimp only
  generalize ((KeyMap.get? keeper.perRound proposal.message.round).getD .new) = perRound
  have result := perRound.add_result proposal validity
  generalize perRound.add proposal validity = added at result ⊢
  obtain ⟨stored, reported⟩ := added
  dsimp only at result ⊢
  by_cases member : proposal ∈ perRound.proposals.map Prod.fst
  · rw [if_pos member] at result
    subst result
    simp [member]
  · rw [if_neg member] at result
    cases first : perRound.proposals.head? with
    | none =>
      rw [first] at result
      subst result
      simp
    | some first =>
      rw [first] at result
      subst result
      dsimp only
      rw [Votes.VoteKeeper.evidence_add_getD]
      by_cases same : proposal.message.validatorAddress = address <;> simp [same, member]

/-- `store_proposal` over a list of proposals and their validities, `none` where `PerRound::add`
panics on a proposal from another validator than its round's first.  `storeProposal`, which
the driver's model calls, stores such a proposal instead; here the run stops. -/
def storeProposals (keeper : ProposalKeeper C) :
    List (SignedProposal C × Validity) → Option (ProposalKeeper C)
  | [] => some keeper
  | (proposal, validity) :: calls =>
      if ((KeyMap.get? keeper.perRound proposal.message.round).getD .new).panics proposal then none
      else (keeper.storeProposal proposal validity).storeProposals calls

/-- Every round of a history has one proposer: what the source's callers promise. -/
def SingleProposer (history : List (SignedProposal C × Validity)) : Prop :=
  ∀ first ∈ history, ∀ other ∈ history, first.1.message.round = other.1.message.round →
    first.1.message.validatorAddress = other.1.message.validatorAddress

/-- What the keeper holds after a history of stored proposals: each round's distinct proposals in
the order they first came, each with the validity it first came with, and the evidence the
history calls for. -/
structure Exact (history : List (SignedProposal C × Validity)) (keeper : ProposalKeeper C) :
    Prop where
  proposals : ∀ round, (keeper.getProposalsAndValiditiesForRound round).map Prod.fst =
    ((history.map Prod.fst).filter fun proposal => proposal.message.round = round).eraseDups
  validity : ∀ round entry, entry ∈ keeper.getProposalsAndValiditiesForRound round →
    history.find? (fun other => other.1 = entry.1) = some entry
  evidence : ∀ address, (KeyMap.get? keeper.evidence.map address).getD [] =
    expectedEvidence (history.map Prod.fst) address

theorem exact_new : Exact [] (new : ProposalKeeper C) where
  proposals _ := rfl
  validity round entry member := by simp [getProposalsAndValiditiesForRound, new] at member
  evidence _ := rfl

/-- A proposal is held in its round exactly when it was stored before. -/
theorem Exact.mem_held_iff {history : List (SignedProposal C × Validity)}
    {keeper : ProposalKeeper C} (exact : Exact history keeper) (proposal : SignedProposal C) :
    proposal ∈ (keeper.getProposalsAndValiditiesForRound proposal.message.round).map Prod.fst ↔
      proposal ∈ history.map Prod.fst := by
  rw [exact.proposals, List.mem_eraseDups, List.mem_filter]
  simp

/-- The first proposal a round holds is the first stored for it. -/
theorem Exact.head?_held {history : List (SignedProposal C × Validity)}
    {keeper : ProposalKeeper C} (exact : Exact history keeper) (round : Round) :
    (keeper.getProposalsAndValiditiesForRound round).head?.map Prod.fst =
      firstOfRound (history.map Prod.fst) round := by
  rw [← List.head?_map, exact.proposals, head?_eraseDups, List.head?_filter, firstOfRound]

/-- One stored proposal keeps the keeper's rounds and evidence those of its history. -/
theorem Exact.storeProposal {history : List (SignedProposal C × Validity)}
    {keeper : ProposalKeeper C} (exact : Exact history keeper) (proposal : SignedProposal C)
    (validity : Validity) :
    Exact (history ++ [(proposal, validity)]) (keeper.storeProposal proposal validity) := by
  have held := exact.mem_held_iff proposal
  refine ⟨fun round => ?_, fun round entry member => ?_, fun address => ?_⟩
  · rw [getProposalsAndValiditiesForRound_storeProposal]
    split
    · next sameRound =>
      subst sameRound
      rw [PerRound.add_proposals_eq, ← getProposalsAndValiditiesForRound_eq, List.map_append,
        List.filter_append, List.map_singleton, List.filter_singleton,
        decide_eq_true rfl, cond_true, eraseDups_append_singleton]
      have stored : proposal ∈ (history.map Prod.fst).filter
          (fun other => other.message.round = proposal.message.round) ↔
          proposal ∈ history.map Prod.fst := by simp
      by_cases member : proposal ∈ history.map Prod.fst
      · rw [if_pos (held.mpr member), if_pos (stored.mpr member), exact.proposals]
      · rw [if_neg (fun inHeld => member (held.mp inHeld)), if_neg (fun inStored => member
          (stored.mp inStored)), List.map_append, exact.proposals]
        rfl
    · next otherRound =>
      rw [exact.proposals, List.map_append, List.filter_append, List.map_singleton,
        List.filter_singleton, decide_eq_false otherRound, cond_false, List.append_nil]
  · rw [List.find?_append]
    rw [getProposalsAndValiditiesForRound_storeProposal] at member
    split at member
    · next sameRound =>
      subst sameRound
      rw [PerRound.add_proposals_eq, ← getProposalsAndValiditiesForRound_eq] at member
      split at member
      · rw [exact.validity _ entry member, Option.some_or]
      · next notHeld =>
        rcases List.mem_append.mp member with old | added
        · rw [exact.validity _ entry old, Option.some_or]
        · -- the new entry: its proposal was never stored before
          rw [List.mem_singleton.mp added]
          have unseen : history.find? (fun other => other.1 = proposal) = none := by
            refine List.find?_eq_none.mpr fun other inHistory same => notHeld (held.mpr ?_)
            exact List.mem_map.mpr ⟨other, inHistory, of_decide_eq_true same⟩
          simp [unseen]
    · rw [exact.validity round entry member, Option.some_or]
  · rw [evidence_storeProposal, exact.evidence, List.map_append, List.map_singleton,
      expectedEvidence_append, ← exact.head?_held, Option.map_map]
    dsimp only
    simp only [held]
    rfl

/-- Against a history with one proposer a round, `PerRound::add` panics exactly on a proposal
whose round the history gave to another validator. -/
theorem Exact.panics_iff {history : List (SignedProposal C × Validity)}
    {keeper : ProposalKeeper C} (exact : Exact history keeper) (single : SingleProposer history)
    (proposal : SignedProposal C) :
    ((KeyMap.get? keeper.perRound proposal.message.round).getD .new).panics proposal = true ↔
      ∃ other ∈ history, other.1.message.round = proposal.message.round ∧
        other.1.message.validatorAddress ≠ proposal.message.validatorAddress := by
  have held := exact.mem_held_iff proposal
  have first := exact.head?_held proposal.message.round
  rw [getProposalsAndValiditiesForRound_eq] at held first
  generalize ((KeyMap.get? keeper.perRound proposal.message.round).getD .new) = perRound
    at held first ⊢
  have present := perRound.any_eq_true_iff_mem proposal
  by_cases stored : proposal ∈ history.map Prod.fst
  · -- a proposal stored before is held, and its round is its own proposer's
    have isHeld := present.mpr (held.mpr stored)
    obtain ⟨entry, entryMember, rfl⟩ := List.mem_map.mp stored
    simp only [PerRound.panics, isHeld, Bool.not_true, Bool.false_and, Bool.false_eq_true,
      false_iff, not_exists, not_and]
    intro other member sameRound differ
    exact differ (single other member entry entryMember sameRound)
  · have notHeld : perRound.proposals.any (fun entry => entry.1 = proposal) = false := by
      cases found : perRound.proposals.any (fun entry => entry.1 = proposal)
      · rfl
      · exact absurd (held.mp (present.mp found)) stored
    simp only [PerRound.panics, notHeld, Bool.not_false, Bool.true_and]
    cases head : perRound.proposals.head? with
    | none =>
      -- no proposal of the round was stored before
      rw [head, Option.map_none, eq_comm, firstOfRound, List.find?_eq_none] at first
      simp only [Option.any_none, Bool.false_eq_true, false_iff, not_exists, not_and]
      intro other member sameRound
      exact absurd (by simpa using sameRound) (first other.1 (List.mem_map_of_mem member))
    | some entry =>
      -- the round's first proposal was stored before, by the round's one proposer
      rw [head, Option.map_some, eq_comm, firstOfRound] at first
      have firstMember := List.mem_of_find?_eq_some first
      have firstRound : entry.1.message.round = proposal.message.round := by
        simpa using List.find?_some first
      obtain ⟨stored, storedMember, same⟩ := List.mem_map.mp firstMember
      simp only [Option.any_some, bne_iff_ne, ne_eq]
      constructor
      · intro differ
        exact ⟨stored, storedMember, same ▸ firstRound, same ▸ differ⟩
      · rintro ⟨other, member, sameRound, differ⟩ agree
        have proposer := single stored storedMember other member (by rw [same, firstRound, sameRound])
        exact differ (by rw [← proposer, same, agree])

/-- A proposal that `PerRound::add` does not panic on keeps one proposer a round. -/
theorem singleProposer_append {history : List (SignedProposal C × Validity)}
    (single : SingleProposer history) {proposal : SignedProposal C} {validity : Validity}
    (agrees : ¬∃ other ∈ history, other.1.message.round = proposal.message.round ∧
      other.1.message.validatorAddress ≠ proposal.message.validatorAddress) :
    SingleProposer (history ++ [(proposal, validity)]) := by
  have against : ∀ other ∈ history, other.1.message.round = proposal.message.round →
      other.1.message.validatorAddress = proposal.message.validatorAddress := by
    intro other member sameRound
    by_contra differ
    exact agrees ⟨other, member, sameRound, differ⟩
  intro first firstMember other otherMember sameRound
  rcases List.mem_append.mp firstMember with firstOld | firstNew <;>
    rcases List.mem_append.mp otherMember with otherOld | otherNew
  · exact single first firstOld other otherOld sameRound
  · rw [List.mem_singleton.mp otherNew] at sameRound ⊢
    exact against first firstOld sameRound
  · rw [List.mem_singleton.mp firstNew] at sameRound ⊢
    exact (against other otherOld sameRound.symm).symm
  · rw [List.mem_singleton.mp firstNew, List.mem_singleton.mp otherNew]

/-- The run lemma: from a keeper exact for a history with one proposer a round, a run either
ends with the keeper exact for the longer history, or stops on the first proposal of a round
another validator proposed in. -/
theorem Exact.storeProposals {history : List (SignedProposal C × Validity)}
    {keeper : ProposalKeeper C} (exact : Exact history keeper) (single : SingleProposer history)
    (calls : List (SignedProposal C × Validity)) :
    (∀ final, keeper.storeProposals calls = some final → Exact (history ++ calls) final) ∧
      (keeper.storeProposals calls = none ↔ ¬SingleProposer (history ++ calls)) := by
  induction calls generalizing history keeper with
  | nil =>
    refine ⟨fun final stored => ?_, ?_⟩
    · simp only [ProposalKeeper.storeProposals, Option.some.injEq] at stored
      subst stored
      simpa using exact
    · simp [ProposalKeeper.storeProposals, single]
  | cons call calls ih =>
    obtain ⟨proposal, validity⟩ := call
    have rearranged : history ++ (proposal, validity) :: calls =
        (history ++ [(proposal, validity)]) ++ calls := by
      simp
    by_cases panicking :
        ((KeyMap.get? keeper.perRound proposal.message.round).getD .new).panics proposal = true
    · -- another validator proposed in this round before: the run stops
      obtain ⟨other, member, sameRound, differ⟩ := (exact.panics_iff single proposal).mp panicking
      have stops : keeper.storeProposals ((proposal, validity) :: calls) = none := by
        simp [ProposalKeeper.storeProposals, panicking]
      refine ⟨fun final stored => (by rw [stops] at stored; cases stored), ?_⟩
      simp only [stops, true_iff]
      intro all
      exact differ (all other (List.mem_append_left _ member) (proposal, validity) (by simp)
        sameRound)
    · have continues : keeper.storeProposals ((proposal, validity) :: calls) =
          (keeper.storeProposal proposal validity).storeProposals calls := by
        simp [ProposalKeeper.storeProposals, panicking]
      rw [continues, rearranged]
      exact ih (exact.storeProposal proposal validity)
        (singleProposer_append single (mt (exact.panics_iff single proposal).mpr panicking))

theorem proposal_evidence_exact (calls : List (SignedProposal C × Validity)) :
    (∀ keeper, (new : ProposalKeeper C).storeProposals calls = some keeper → Exact calls keeper) ∧
      ((new : ProposalKeeper C).storeProposals calls = none ↔
        ∃ first ∈ calls, ∃ other ∈ calls, first.1.message.round = other.1.message.round ∧
          first.1.message.validatorAddress ≠ other.1.message.validatorAddress) := by
  have run := exact_new.storeProposals (fun _ absent => (List.not_mem_nil absent).elim) calls
  simp only [List.nil_append] at run
  refine ⟨run.1, run.2.trans ?_⟩
  simp only [SingleProposer, not_forall, exists_prop, ne_eq]

/-- Two proposals of one value that differ only in their POL round are evidence. -/
example :
    ((new : ProposalKeeper testContext).storeProposals
        [(⟨⟨0, .some 1, 5, .nil, 1⟩, 1⟩, .valid), (⟨⟨0, .some 1, 5, .some 0, 1⟩, 1⟩, .valid)]).map
      (fun keeper => KeyMap.get? keeper.evidence.map 1) =
      some (some [(⟨⟨0, .some 1, 5, .nil, 1⟩, 1⟩, ⟨⟨0, .some 1, 5, .some 0, 1⟩, 1⟩)]) := by
  decide

/-- A second validator's proposal in a round makes `PerRound::add` panic. -/
example :
    ((new : ProposalKeeper testContext).storeProposals
        [(⟨⟨0, .some 1, 5, .nil, 1⟩, 1⟩, .valid), (⟨⟨0, .some 1, 5, .nil, 2⟩, 2⟩, .valid)]).isNone := by
  decide

end ProposalKeeper

end Malachite.Proposals
