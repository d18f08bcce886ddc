import Malachite.Types.Context
import Malachite.Lib.KeyMap

namespace Malachite.Consensus

/-! The full-proposal keeper of the consensus core
(`core-consensus/src/full_proposal.rs`): for each height and round, the
proposals and the proposed values received, paired into full proposals when a
proposal and a value of the same id meet.  The keeper is a `BTreeMap` keyed by
`(height, round)`; the model is an association list with distinct keys, sorted
where the source iterates over a range of keys.

The source's `Entry::Empty` is a placeholder that `replace_with!` puts in for
the instant of a replacement; it is never stored, and the branches that panic
on it cannot be reached, so the model has no such entry. -/

variable {C : Context}

variable (C) in
/-- A value for a height and round, as the application or sync hands it to
consensus (`types.rs`). -/
structure ProposedValue where
  height : C.Height
  round : Round
  validRound : Round
  proposer : C.Address
  value : C.Value
  validity : Validity
deriving DecidableEq

/-- What `value_exists` looks at: the height, the round and the value's id. -/
def ProposedValue.key (proposedValue : ProposedValue C) : C.Height × Round × C.ValueId :=
  (proposedValue.height, proposedValue.round, C.id proposedValue.value)

variable (C) in
/-- A proposal together with its value and validity.  The keeper pairs a
proposal only with a value of the same id, and the structure carries that. -/
structure FullProposal where
  builderValue : C.Value
  validity : Validity
  proposal : SignedProposal C
  sameId : C.id builderValue = C.id proposal.message.value
deriving DecidableEq

variable (C) in
inductive Entry where
  | full (fullProposal : FullProposal C)
  | proposalOnly (proposal : SignedProposal C)
  | valueOnly (value : C.Value) (validity : Validity)
deriving DecidableEq

/-- `Entry::id`; it is `None` only for the placeholder. -/
def Entry.id : Entry C → C.ValueId
  | .full fullProposal => C.id fullProposal.builderValue
  | .proposalOnly proposal => C.id proposal.message.value
  | .valueOnly value _ => C.id value

/-- `(height, round)` keys in the order of the source's tuple `Ord`. -/
def keyLe (key other : C.Height × Round) : Bool :=
  decide (key.1 < other.1) || (decide (key.1 = other.1) && decide (key.2 ≤ other.2))

variable (C) in
structure FullProposalKeeper where
  keeper : List ((C.Height × Round) × List (Entry C))
  distinct : (keeper.map Prod.fst).Nodup

namespace FullProposalKeeper

def new : FullProposalKeeper C := ⟨[], List.nodup_nil⟩

/-- `self.keeper.get(&key)`. -/
def entriesAt (keeper : FullProposalKeeper C) (key : C.Height × Round) :
    Option (List (Entry C)) :=
  KeyMap.get? keeper.keeper key

/-- Write the entries of a key, as `insert` and the writes through `get_mut` do. -/
def insert (keeper : FullProposalKeeper C) (key : C.Height × Round) (entries : List (Entry C)) :
    FullProposalKeeper C :=
  ⟨KeyMap.insert keeper.keeper key entries, KeyMap.nodup_keys_insert keeper.distinct key entries⟩

/-- `self.keeper.range(first..)`: the keys from `first` on, in key order. -/
def range (keeper : FullProposalKeeper C) (first : C.Height × Round) :
    List ((C.Height × Round) × List (Entry C)) :=
  (keeper.keeper.filter fun entry => keyLe first entry.1).mergeSort fun a b => keyLe a.1 b.1

def proposalsForValue (keeper : FullProposalKeeper C) (proposedValue : ProposedValue C) :
    List (SignedProposal C) :=
  (keeper.range (proposedValue.height, proposedValue.round)).flatMap fun entry =>
    entry.2.filterMap fun
      | .full fullProposal =>
          if C.id fullProposal.proposal.message.value = C.id proposedValue.value then
            some fullProposal.proposal
          else none
      | _ => none

def getValue (keeper : FullProposalKeeper C) (height : C.Height) (round : Round)
    (value : C.Value) : Option (C.Value × Validity) :=
  match keeper.entriesAt (height, round) with
  | none => none
  | some entries => entries.findSome? fun
      | .full fullProposal =>
          if C.id fullProposal.proposal.message.value = C.id value then
            some (value, fullProposal.validity)
          else none
      | .valueOnly stored validity =>
          if C.id stored = C.id value then some (value, validity) else none
      | .proposalOnly _ => none

/-- `new_entry`: a proposal with a proof-of-lock round is full when a value of
its id was received at that round.  `get_value` hands back the value it was
asked for, so the full proposal's value is the proposal's. -/
def newEntry (keeper : FullProposalKeeper C) (newProposal : SignedProposal C) : Entry C :=
  if newProposal.message.polRound.isNil then .proposalOnly newProposal
  else
    match keeper.getValue newProposal.message.height newProposal.message.polRound
        newProposal.message.value with
    | none => .proposalOnly newProposal
    | some (_, validity) => .full ⟨newProposal.message.value, validity, newProposal, rfl⟩

/-- The loop of `store_proposal` over the entries of the proposal's round:
`some` the entries it returns with, `none` where it runs to the end. -/
def storeProposalIn (newProposal : SignedProposal C) : List (Entry C) → Option (List (Entry C))
  | [] => none
  | .full fullProposal :: rest =>
      if C.id fullProposal.proposal.message.value = C.id newProposal.message.value then
        some (.full fullProposal :: rest)
      else (storeProposalIn newProposal rest).map (.full fullProposal :: ·)
  | .valueOnly value validity :: rest =>
      -- the source compares the values here, not their ids
      if same : value = newProposal.message.value then
        some (.full ⟨value, validity, newProposal, congrArg C.id same⟩ :: rest)
      else (storeProposalIn newProposal rest).map (.valueOnly value validity :: ·)
  | .proposalOnly proposal :: rest =>
      if C.id proposal.message.value = C.id newProposal.message.value then
        some (.proposalOnly proposal :: rest)
      else (storeProposalIn newProposal rest).map (.proposalOnly proposal :: ·)

def storeProposal (keeper : FullProposalKeeper C) (newProposal : SignedProposal C) :
    FullProposalKeeper C :=
  let key := (newProposal.message.height, newProposal.message.round)
  match keeper.entriesAt key with
  | none => keeper.insert key [keeper.newEntry newProposal]
  | some entries =>
      match storeProposalIn newProposal entries with
      | some entries => keeper.insert key entries
      | none => keeper.insert key (entries ++ [keeper.newEntry newProposal])

/-- The loop of `store_value_at_value_round`, as `storeProposalIn`. -/
def storeValueIn (newValue : ProposedValue C) : List (Entry C) → Option (List (Entry C))
  | [] => none
  | .proposalOnly proposal :: rest =>
      if same : C.id proposal.message.value = C.id newValue.value then
        some (.full ⟨newValue.value, newValue.validity, proposal, same.symm⟩ :: rest)
      else (storeValueIn newValue rest).map (.proposalOnly proposal :: ·)
  | .valueOnly value validity :: rest =>
      if C.id value = C.id newValue.value then some (.valueOnly value validity :: rest)
      else (storeValueIn newValue rest).map (.valueOnly value validity :: ·)
  | .full fullProposal :: rest =>
      if C.id fullProposal.proposal.message.value = C.id newValue.value then
        some (.full fullProposal :: rest)
      else (storeValueIn newValue rest).map (.full fullProposal :: ·)

def storeValueAtValueRound (keeper : FullProposalKeeper C) (newValue : ProposedValue C) :
    FullProposalKeeper C :=
  let key := (newValue.height, newValue.round)
  match keeper.entriesAt key with
  | none => keeper.insert key [.valueOnly newValue.value newValue.validity]
  | some entries =>
      match storeValueIn newValue entries with
      | some entries => keeper.insert key entries
      | none => keeper.insert key (entries ++ [.valueOnly newValue.value newValue.validity])

/-- What `store_value_at_pol_round` does to one entry: a proposal of the
value's id, made at the value's round or locked on it, becomes full. -/
def completeProposal (newValue : ProposedValue C) : Entry C → Entry C
  | .proposalOnly proposal =>
      if matching : C.id proposal.message.value = C.id newValue.value ∧
          (proposal.message.round = newValue.round ∨ proposal.message.polRound = newValue.round) then
        .full ⟨newValue.value, newValue.validity, proposal, matching.1.symm⟩
      else .proposalOnly proposal
  | entry => entry

def storeValueAtPolRound (keeper : FullProposalKeeper C) (newValue : ProposedValue C) :
    FullProposalKeeper C :=
  let first := (newValue.height, newValue.round)
  ⟨KeyMap.mapValues keeper.keeper fun key entries =>
      if keyLe first key then entries.map (completeProposal newValue) else entries,
    by rw [KeyMap.keys_mapValues]; exact keeper.distinct⟩

def storeValue (keeper : FullProposalKeeper C) (newValue : ProposedValue C) :
    FullProposalKeeper C :=
  (keeper.storeValueAtValueRound newValue).storeValueAtPolRound newValue

def valueExists (keeper : FullProposalKeeper C) (value : ProposedValue C) : Bool :=
  match keeper.entriesAt (value.height, value.round) with
  | none => false
  | some entries => entries.any fun entry => decide (entry.id = C.id value.value)

/-- The ids of the entries of a height and round. -/
def idsAt (keeper : FullProposalKeeper C) (key : C.Height × Round) : List C.ValueId :=
  ((keeper.entriesAt key).getD []).map Entry.id

/-- `full_proposal_at_round_and_value`: the first full proposal of the round whose proposal
has the value id. -/
def fullProposalAtRoundAndValue (keeper : FullProposalKeeper C) (height : C.Height) (round : Round)
    (valueId : C.ValueId) : Option (FullProposal C) :=
  match (keeper.entriesAt (height, round)).filter fun entries => !entries.isEmpty with
  | none => none
  | some entries => entries.findSome? fun
      | .full fullProposal =>
          if C.id fullProposal.proposal.message.value = valueId then some fullProposal else none
      | _ => none

/-- `full_proposal_at_round_and_proposer`: the first full proposal of the round whose proposal
was made by the address. -/
def fullProposalAtRoundAndProposer (keeper : FullProposalKeeper C) (height : C.Height)
    (round : Round) (proposer : C.Address) : Option (FullProposal C) :=
  match (keeper.entriesAt (height, round)).filter fun entries => !entries.isEmpty with
  | none => none
  | some entries => entries.findSome? fun
      | .full fullProposal =>
          if fullProposal.proposal.message.validatorAddress = proposer then some fullProposal
          else none
      | _ => none

/-- `clear`, as `State::reset_and_start_height` calls it for each new height. -/
def clear (_ : FullProposalKeeper C) : FullProposalKeeper C := new

/-- No id held at a key is lost: what storing proposals and values keeps. -/
def Grows (keeper next : FullProposalKeeper C) : Prop :=
  ∀ key, ∀ valueId ∈ keeper.idsAt key, valueId ∈ next.idsAt key

theorem Grows.refl (keeper : FullProposalKeeper C) : keeper.Grows keeper :=
  fun _ _ held => held

theorem Grows.trans {keeper middle next : FullProposalKeeper C} (first : keeper.Grows middle)
    (second : middle.Grows next) : keeper.Grows next :=
  fun key valueId held => second key valueId (first key valueId held)

/-- `value_exists` asks whether the value's id is among those of its round. -/
theorem valueExists_eq (keeper : FullProposalKeeper C) (value : ProposedValue C) :
    keeper.valueExists value = decide (C.id value.value ∈ keeper.idsAt (value.height, value.round)) := by
  unfold valueExists idsAt
  cases keeper.entriesAt (value.height, value.round) with
  | none => simp
  | some entries => simp [List.any_eq, eq_comm]

theorem idsAt_insert (keeper : FullProposalKeeper C) (key wanted : C.Height × Round)
    (entries : List (Entry C)) :
    (keeper.insert key entries).idsAt wanted =
      if key = wanted then entries.map Entry.id else keeper.idsAt wanted := by
  unfold idsAt entriesAt insert
  rw [KeyMap.get?_insert]
  split <;> rfl

theorem newEntry_id (keeper : FullProposalKeeper C) (newProposal : SignedProposal C) :
    (keeper.newEntry newProposal).id = C.id newProposal.message.value := by
  unfold newEntry
  split
  · rfl
  · split <;> rfl

/-- One step of the two loops: an entry passed over is kept in front. -/
theorem ids_cons_of_map {entry : Entry C} {rest stored : List (Entry C)}
    {found : Option (List (Entry C))} {valueId : C.ValueId}
    (ih : ∀ kept, found = some kept →
      kept.map Entry.id = rest.map Entry.id ∧ valueId ∈ rest.map Entry.id)
    (returned : found.map (entry :: ·) = some stored) :
    stored.map Entry.id = (entry :: rest).map Entry.id ∧
      valueId ∈ (entry :: rest).map Entry.id := by
  obtain ⟨kept, keptFound, rfl⟩ := Option.map_eq_some_iff.mp returned
  obtain ⟨ids, member⟩ := ih kept keptFound
  exact ⟨by simp [ids], List.mem_cons_of_mem _ member⟩

/-- Where the loop of `store_proposal` returns, an entry of the proposal's id
was there, and the ids are unchanged. -/
theorem storeProposalIn_ids {newProposal : SignedProposal C} {entries stored : List (Entry C)}
    (returned : storeProposalIn newProposal entries = some stored) :
    stored.map Entry.id = entries.map Entry.id ∧
      C.id newProposal.message.value ∈ entries.map Entry.id := by
  induction entries generalizing stored with
  | nil => cases returned
  | cons entry rest ih =>
      cases entry with
      | full fullProposal =>
          simp only [storeProposalIn] at returned
          split_ifs at returned with same
          · cases returned
            exact ⟨rfl, by simp [Entry.id, fullProposal.sameId, same]⟩
          · exact ids_cons_of_map (fun _ => ih) returned
      | valueOnly value validity =>
          simp only [storeProposalIn] at returned
          split_ifs at returned with same
          · cases returned
            exact ⟨rfl, by simp [Entry.id, same]⟩
          · exact ids_cons_of_map (fun _ => ih) returned
      | proposalOnly proposal =>
          simp only [storeProposalIn] at returned
          split_ifs at returned with same
          · cases returned
            exact ⟨rfl, by simp [Entry.id, same]⟩
          · exact ids_cons_of_map (fun _ => ih) returned

theorem storeValueIn_ids {newValue : ProposedValue C} {entries stored : List (Entry C)}
    (returned : storeValueIn newValue entries = some stored) :
    stored.map Entry.id = entries.map Entry.id ∧ C.id newValue.value ∈ entries.map Entry.id := by
  induction entries generalizing stored with
  | nil => cases returned
  | cons entry rest ih =>
      cases entry with
      | full fullProposal =>
          simp only [storeValueIn] at returned
          split_ifs at returned with same
          · cases returned
            exact ⟨rfl, by simp [Entry.id, fullProposal.sameId, same]⟩
          · exact ids_cons_of_map (fun _ => ih) returned
      | valueOnly value validity =>
          simp only [storeValueIn] at returned
          split_ifs at returned with same
          · cases returned
            exact ⟨rfl, by simp [Entry.id, same]⟩
          · exact ids_cons_of_map (fun _ => ih) returned
      | proposalOnly proposal =>
          simp only [storeValueIn] at returned
          split_ifs at returned with same
          · cases returned
            exact ⟨by simp [Entry.id, same], by simp [Entry.id, same]⟩
          · exact ids_cons_of_map (fun _ => ih) returned

/-- The two stores of one key, said once: the entries they write keep the
key's ids and hold the new id. -/
theorem insert_spec {keeper : FullProposalKeeper C} {key : C.Height × Round}
    {valueId : C.ValueId} {stored : List (Entry C)}
    (kept : ∀ held ∈ keeper.idsAt key, held ∈ stored.map Entry.id)
    (added : valueId ∈ stored.map Entry.id) :
    keeper.Grows (keeper.insert key stored) ∧ valueId ∈ (keeper.insert key stored).idsAt key := by
  refine ⟨fun wanted held member => ?_, by simpa [idsAt_insert] using added⟩
  rw [idsAt_insert]
  split
  · next same => exact kept held (same ▸ member)
  · exact member

/-- What `store_proposal` does to the ids: it keeps them all, and the
proposal's round then holds the proposal's value id. -/
theorem storeProposal_spec (keeper : FullProposalKeeper C) (newProposal : SignedProposal C) :
    keeper.Grows (keeper.storeProposal newProposal) ∧
      C.id newProposal.message.value ∈ (keeper.storeProposal newProposal).idsAt
        (newProposal.message.height, newProposal.message.round) := by
  dsimp only [storeProposal]
  split
  · next absent =>
      refine insert_spec (fun held member => ?_) (by simp [newEntry_id])
      simp [idsAt, absent] at member
  · next entries found =>
      have ids : keeper.idsAt (newProposal.message.height, newProposal.message.round) =
          entries.map Entry.id := by simp [idsAt, found]
      split
      · next stored returned =>
          obtain ⟨same, member⟩ := storeProposalIn_ids returned
          exact insert_spec (fun held => by rw [ids, ← same]; exact id) (same ▸ member)
      · exact insert_spec (fun held => by rw [ids]; simp +contextual) (by simp [newEntry_id])

theorem storeValueAtValueRound_spec (keeper : FullProposalKeeper C) (newValue : ProposedValue C) :
    keeper.Grows (keeper.storeValueAtValueRound newValue) ∧
      C.id newValue.value ∈ (keeper.storeValueAtValueRound newValue).idsAt
        (newValue.height, newValue.round) := by
  dsimp only [storeValueAtValueRound]
  split
  · next absent =>
      refine insert_spec (fun held member => ?_) (by simp [Entry.id])
      simp [idsAt, absent] at member
  · next entries found =>
      have ids : keeper.idsAt (newValue.height, newValue.round) = entries.map Entry.id := by
        simp [idsAt, found]
      split
      · next stored returned =>
          obtain ⟨same, member⟩ := storeValueIn_ids returned
          exact insert_spec (fun held => by rw [ids, ← same]; exact id) (same ▸ member)
      · exact insert_spec (fun held => by rw [ids]; simp +contextual) (by simp [Entry.id])

theorem completeProposal_id (newValue : ProposedValue C) (entry : Entry C) :
    (completeProposal newValue entry).id = entry.id := by
  cases entry with
  | proposalOnly proposal =>
      simp only [completeProposal]
      split
      · next matching => exact matching.1.symm
      · rfl
  | full fullProposal => rfl
  | valueOnly value validity => rfl

/-- Completing proposals at later rounds changes no id. -/
theorem idsAt_storeValueAtPolRound (keeper : FullProposalKeeper C) (newValue : ProposedValue C)
    (key : C.Height × Round) :
    (keeper.storeValueAtPolRound newValue).idsAt key = keeper.idsAt key := by
  unfold idsAt entriesAt storeValueAtPolRound
  rw [KeyMap.get?_mapValues]
  cases KeyMap.get? keeper.keeper key with
  | none => rfl
  | some entries =>
      simp only [Option.map_some, Option.getD_some]
      split
      · simp [Function.comp_def, completeProposal_id]
      · rfl

theorem storeValue_spec (keeper : FullProposalKeeper C) (newValue : ProposedValue C) :
    keeper.Grows (keeper.storeValue newValue) ∧
      C.id newValue.value ∈ (keeper.storeValue newValue).idsAt (newValue.height, newValue.round) := by
  obtain ⟨grows, added⟩ := keeper.storeValueAtValueRound_spec newValue
  unfold storeValue
  refine ⟨fun key valueId held => ?_, ?_⟩
  · rw [idsAt_storeValueAtPolRound]
    exact grows key valueId held
  · rw [idsAt_storeValueAtPolRound]
    exact added

theorem valueExists_of_grows {keeper next : FullProposalKeeper C} (grows : keeper.Grows next)
    {value : ProposedValue C} (held : keeper.valueExists value = true) :
    next.valueExists value = true := by
  rw [valueExists_eq, decide_eq_true_eq] at held ⊢
  exact grows _ _ held

theorem valueExists_eq_false_of_grows {keeper next : FullProposalKeeper C}
    (grows : keeper.Grows next) {value : ProposedValue C} (absent : next.valueExists value = false) :
    keeper.valueExists value = false := by
  cases held : keeper.valueExists value with
  | false => rfl
  | true => rw [valueExists_of_grows grows held] at absent; cases absent

theorem valueExists_congr (keeper : FullProposalKeeper C) {value other : ProposedValue C}
    (sameKey : value.key = other.key) : keeper.valueExists value = keeper.valueExists other := by
  simp only [ProposedValue.key, Prod.mk.injEq] at sameKey
  obtain ⟨height, round, valueId⟩ := sameKey
  rw [valueExists_eq, valueExists_eq, height, round, valueId]

/-- A stored proposal makes every value of its height, round and value id exist. -/
theorem valueExists_storeProposal (keeper : FullProposalKeeper C) (newProposal : SignedProposal C)
    {value : ProposedValue C}
    (sameKey : value.key = (newProposal.message.height, newProposal.message.round,
      C.id newProposal.message.value)) :
    (keeper.storeProposal newProposal).valueExists value = true := by
  simp only [ProposedValue.key, Prod.mk.injEq] at sameKey
  obtain ⟨height, round, valueId⟩ := sameKey
  rw [valueExists_eq, decide_eq_true_eq, height, round, valueId]
  exact (keeper.storeProposal_spec newProposal).2

theorem valueExists_storeValue (keeper : FullProposalKeeper C) (value : ProposedValue C) :
    (keeper.storeValue value).valueExists value = true := by
  rw [valueExists_eq, decide_eq_true_eq]
  exact (keeper.storeValue_spec value).2

@[simp] theorem entriesAt_new (key : C.Height × Round) : (new : FullProposalKeeper C).entriesAt key = none :=
  rfl

theorem entriesAt_insert (keeper : FullProposalKeeper C) (key wanted : C.Height × Round)
    (entries : List (Entry C)) :
    (keeper.insert key entries).entriesAt wanted =
      if key = wanted then some entries else keeper.entriesAt wanted :=
  KeyMap.get?_insert keeper.keeper key wanted entries

/-- `store_value_at_value_round` writes only the value's own height and round. -/
theorem entriesAt_storeValueAtValueRound_of_ne (keeper : FullProposalKeeper C)
    (newValue : ProposedValue C) {key : C.Height × Round} (other : (newValue.height, newValue.round) ≠ key) :
    (keeper.storeValueAtValueRound newValue).entriesAt key = keeper.entriesAt key := by
  dsimp only [storeValueAtValueRound]
  split
  · rw [entriesAt_insert, if_neg other]
  · split <;> rw [entriesAt_insert, if_neg other]

theorem entriesAt_storeValueAtPolRound (keeper : FullProposalKeeper C) (newValue : ProposedValue C)
    (key : C.Height × Round) :
    (keeper.storeValueAtPolRound newValue).entriesAt key =
      (keeper.entriesAt key).map fun entries =>
        if keyLe (newValue.height, newValue.round) key then entries.map (completeProposal newValue)
        else entries := by
  unfold entriesAt storeValueAtPolRound
  dsimp only
  exact KeyMap.get?_mapValues keeper.keeper _ key

section Order

variable (proposal : SignedProposal C) (value : ProposedValue C)

/-- Matching depends on the order of arrival for a proposal locked on a later round than
its own: stored before the value of its lock round, the proposal is never completed, since
`store_value_at_pol_round` only looks at rounds from the value's on; stored after it,
`new_entry` finds the value and makes it full. -/
theorem order_dependent
    (lockedLater : proposal.message.round < proposal.message.polRound)
    (sameHeight : value.height = proposal.message.height)
    (atPolRound : value.round = proposal.message.polRound)
    (sameId : C.id value.value = C.id proposal.message.value) :
    ((new.storeProposal proposal).storeValue value).fullProposalAtRoundAndValue
        proposal.message.height proposal.message.round (C.id proposal.message.value) = none ∧
      ((new.storeValue value).storeProposal proposal).fullProposalAtRoundAndValue
        proposal.message.height proposal.message.round (C.id proposal.message.value) ≠ none := by
  have locked : proposal.message.polRound.isNil = false := by
    cases polRound : proposal.message.polRound with
    | nil => exact absurd polRound (Round.ne_nil_of_lt lockedLater)
    | some _ => rfl
  have valueKey : (value.height, value.round) ≠ (proposal.message.height, proposal.message.round) := by
    rw [sameHeight, atPolRound]
    simpa using (ne_of_lt lockedLater).symm
  have notAfter : keyLe (value.height, value.round)
      (proposal.message.height, proposal.message.round) = false := by
    simp [keyLe, sameHeight, atPolRound, not_le.mpr lockedLater]
  constructor
  · -- proposal first: it stays alone at its round
    have alone : (new.storeProposal proposal).entriesAt
        (proposal.message.height, proposal.message.round) = some [.proposalOnly proposal] := by
      simp [storeProposal, newEntry, locked, getValue, entriesAt_insert]
    have stillAlone : ((new.storeProposal proposal).storeValue value).entriesAt
        (proposal.message.height, proposal.message.round) = some [.proposalOnly proposal] := by
      rw [storeValue, entriesAt_storeValueAtPolRound,
        entriesAt_storeValueAtValueRound_of_ne _ _ valueKey, alone, notAfter]
      rfl
    simp [fullProposalAtRoundAndValue, stillAlone, Option.filter]
  · -- value first: `new_entry` finds it at the lock round
    have valueStored : (new.storeValue value).entriesAt (value.height, value.round) =
        some [.valueOnly value.value value.validity] := by
      simp [storeValue, entriesAt_storeValueAtPolRound, storeValueAtValueRound, entriesAt_insert,
        completeProposal, keyLe]
    have roundEmpty : (new.storeValue value).entriesAt
        (proposal.message.height, proposal.message.round) = none := by
      rw [storeValue, entriesAt_storeValueAtPolRound,
        entriesAt_storeValueAtValueRound_of_ne _ _ valueKey]
      rfl
    have full : (new.storeValue value).newEntry proposal =
        .full ⟨proposal.message.value, value.validity, proposal, rfl⟩ := by
      rw [sameHeight, atPolRound] at valueStored
      simp [newEntry, locked, getValue, valueStored, sameId]
    simp [storeProposal, roundEmpty, full, entriesAt_insert, fullProposalAtRoundAndValue,
      Option.filter]

end Order

/-- A proposal of round 0 locked on round 1, and the value of round 1: stored
after the value, the proposal is full; stored before it, it never is. -/
theorem order_dependent_at_lock_round_one :
    let proposal : SignedProposal testContext := ⟨⟨0, .some 0, 5, .some 1, 0⟩, 0⟩
    let value : ProposedValue testContext := ⟨0, .some 1, .nil, 0, 5, .valid⟩
    (proposal.message.round < proposal.message.polRound ∧ value.height = proposal.message.height ∧
        value.round = proposal.message.polRound ∧ testContext.id value.value = testContext.id proposal.message.value) ∧
      ((new.storeProposal proposal).storeValue value).fullProposalAtRoundAndValue
          proposal.message.height proposal.message.round (testContext.id proposal.message.value) = none ∧
        ((new.storeValue value).storeProposal proposal).fullProposalAtRoundAndValue
          proposal.message.height proposal.message.round (testContext.id proposal.message.value) ≠ none := by
  intro proposal value
  have lockedLater : proposal.message.round < proposal.message.polRound := by decide
  exact ⟨⟨lockedLater, rfl, rfl, rfl⟩, order_dependent proposal value lockedLater rfl rfl rfl⟩

end FullProposalKeeper

end Malachite.Consensus
