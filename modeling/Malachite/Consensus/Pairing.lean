import Malachite.Consensus.FullProposal

namespace Malachite.Consensus

/-! What the full-proposal keeper pairs (`core-consensus/src/full_proposal.rs`), over any
run of `store_proposal` and `store_value` from an empty keeper.  Consensus clears the keeper
when it starts a height (`State::reset_and_start_height`), so every keeper it queries is
reached by such a run.

Soundness (`Sourced`): every entry is made of what was stored.  A proposal an entry holds
was stored for the entry's height and round, and a validity it holds came with a stored
value of the entry's id, for that height or a lower one (`store_value_at_pol_round` also
completes proposals of later heights).  The full proposals that `on_proposal`,
`on_proposed_value` and the `GetValue` output hand on are therefore made of what the keeper
received.

Completeness (`Holds`, `Distinct`): once a proposal and a value of its id for its height and
round have both been stored, in either order and whatever came between, the round holds a
full proposal of that id.  This needs value ids that tell values apart: the loop of
`store_proposal` compares a stored value with the proposal's by value, not by id, and where
two values share an id it appends a second entry of that id, which the pairing then misses. -/

variable {C : Context}

section Replace

variable {α : Type} {R : α → α → Prop}

/-- The list `after` is `before` with one element changed, the new one related to the old
one by `R`. -/
def ReplacesOne (R : α → α → Prop) (before after : List α) : Prop :=
  ∃ front old new back, before = front ++ old :: back ∧ after = front ++ new :: back ∧ R old new

theorem ReplacesOne.head {old new : α} (related : R old new) (rest : List α) :
    ReplacesOne R (old :: rest) (new :: rest) :=
  ⟨[], old, new, rest, rfl, rfl, related⟩

theorem ReplacesOne.cons {before after : List α} (replaces : ReplacesOne R before after)
    (first : α) : ReplacesOne R (first :: before) (first :: after) := by
  obtain ⟨front, old, new, back, rfl, rfl, related⟩ := replaces
  exact ⟨first :: front, old, new, back, rfl, rfl, related⟩

/-- A loop that passes over its first element returns what it returns on the rest. -/
theorem ReplacesOne.of_map_cons {first : α} {rest after : List α} {found : Option (List α)}
    (tail : ∀ kept, found = some kept → ReplacesOne R rest kept)
    (returned : found.map (first :: ·) = some after) : ReplacesOne R (first :: rest) after := by
  obtain ⟨kept, keptFound, rfl⟩ := Option.map_eq_some_iff.mp returned
  exact (tail kept keptFound).cons first

theorem ReplacesOne.exists_related {before after : List α}
    (replaces : ReplacesOne R before after) : ∃ old ∈ before, ∃ new ∈ after, R old new := by
  obtain ⟨front, old, new, back, rfl, rfl, related⟩ := replaces
  exact ⟨old, by simp, new, by simp, related⟩

/-- What holds of every element before, and of each changed element whose old one has it,
holds of every element after. -/
theorem ReplacesOne.forall_mem {P : α → Prop} {before after : List α}
    (replaces : ReplacesOne R before after) (all : ∀ a ∈ before, P a)
    (step : ∀ old new, R old new → P old → P new) : ∀ a ∈ after, P a := by
  obtain ⟨front, old, new, back, rfl, rfl, related⟩ := replaces
  intro a member
  simp only [List.mem_append, List.mem_cons] at all member
  rcases member with inFront | rfl | inBack
  · exact all a (.inl inFront)
  · exact step old a related (all old (.inr (.inl rfl)))
  · exact all a (.inr (.inr inBack))

/-- Every element before has a successor after, for a relation `S` that relates each element
to itself and each changed one to its new form. -/
theorem ReplacesOne.exists_of_mem {S : α → α → Prop} {before after : List α}
    (replaces : ReplacesOne R before after) (refl : ∀ a, S a a)
    (sub : ∀ old new, R old new → S old new) : ∀ a ∈ before, ∃ b ∈ after, S a b := by
  obtain ⟨front, old, new, back, rfl, rfl, related⟩ := replaces
  intro a member
  simp only [List.mem_append, List.mem_cons] at member
  rcases member with inFront | rfl | inBack
  · exact ⟨a, by simp [inFront], refl a⟩
  · exact ⟨new, by simp, sub a new related⟩
  · exact ⟨a, by simp [inBack], refl a⟩

end Replace

variable (C) in
/-- A store into the keeper, as `State::store_proposal` (from `on_proposal`) and
`State::store_value` (from `on_proposed_value`, and from `on_proposal` when only proposals
are published) make them. -/
inductive Store where
  | proposal (proposal : SignedProposal C)
  | value (value : ProposedValue C)

/-- The proposal an entry holds. -/
def Entry.proposal? : Entry C → Option (SignedProposal C)
  | .full fullProposal => some fullProposal.proposal
  | .proposalOnly proposal => some proposal
  | .valueOnly _ _ => none

/-- The validity an entry holds; it came with a value. -/
def Entry.validity? : Entry C → Option Validity
  | .full fullProposal => some fullProposal.validity
  | .proposalOnly _ => none
  | .valueOnly _ validity => some validity

/-- An entry that holds both a proposal and a validity is full. -/
theorem Entry.exists_full_of_isSome {entry : Entry C} (proposed : entry.proposal?.isSome)
    (valued : entry.validity?.isSome) : ∃ fullProposal, entry = .full fullProposal := by
  cases entry with
  | full fullProposal => exact ⟨fullProposal, rfl⟩
  | proposalOnly proposal => simp [Entry.validity?] at valued
  | valueOnly value validity => simp [Entry.proposal?] at proposed

/-- An entry's later form keeps its id and whatever proposal and validity it held. -/
structure Entry.Upgrades (entry later : Entry C) : Prop where
  id : later.id = entry.id
  proposal : entry.proposal?.isSome → later.proposal?.isSome
  validity : entry.validity?.isSome → later.validity?.isSome

theorem Entry.Upgrades.refl (entry : Entry C) : entry.Upgrades entry :=
  ⟨rfl, fun proposed => proposed, fun valued => valued⟩

theorem Entry.Upgrades.trans {entry middle later : Entry C} (first : entry.Upgrades middle)
    (second : middle.Upgrades later) : entry.Upgrades later :=
  ⟨second.id.trans first.id, second.proposal ∘ first.proposal, second.validity ∘ first.validity⟩

/-- A proposal was stored, and it is for the height and round of the key. -/
def ProposalStored (stores : List (Store C)) (key : C.Height × Round)
    (proposal : SignedProposal C) : Prop :=
  Store.proposal proposal ∈ stores ∧ (proposal.message.height, proposal.message.round) = key

/-- A validity came with a stored value of the id, for the key's height or a lower one. -/
def ValidityReceived (stores : List (Store C)) (key : C.Height × Round) (valueId : C.ValueId)
    (validity : Validity) : Prop :=
  ∃ value, Store.value value ∈ stores ∧ C.id value.value = valueId ∧ value.validity = validity ∧
    value.height ≤ key.1

/-- Where an entry held at a key came from. -/
def Entry.Sourced (stores : List (Store C)) (key : C.Height × Round) : Entry C → Prop
  | .full fullProposal => ProposalStored stores key fullProposal.proposal ∧
      ValidityReceived stores key (C.id fullProposal.builderValue) fullProposal.validity
  | .proposalOnly proposal => ProposalStored stores key proposal
  | .valueOnly value validity => ValidityReceived stores key (C.id value) validity

/-- An entry is sourced when what it holds is: the proposal, and the validity for its id. -/
theorem Entry.sourced_of_holds {stores : List (Store C)} {key : C.Height × Round} {entry : Entry C}
    (proposal : ∀ held, entry.proposal? = some held → ProposalStored stores key held)
    (validity : ∀ held, entry.validity? = some held → ValidityReceived stores key entry.id held) :
    entry.Sourced stores key := by
  cases entry with
  | full fullProposal => exact ⟨proposal _ rfl, validity _ rfl⟩
  | proposalOnly held => exact proposal _ rfl
  | valueOnly value held => exact validity _ rfl

section Mono

variable {stores more : List (Store C)} (grown : ∀ store ∈ stores, store ∈ more)
  {key : C.Height × Round}
include grown

theorem ProposalStored.mono {proposal : SignedProposal C}
    (stored : ProposalStored stores key proposal) : ProposalStored more key proposal :=
  ⟨grown _ stored.1, stored.2⟩

theorem ValidityReceived.mono {valueId : C.ValueId} {validity : Validity}
    (received : ValidityReceived stores key valueId validity) :
    ValidityReceived more key valueId validity := by
  obtain ⟨value, member, rest⟩ := received
  exact ⟨value, grown _ member, rest⟩

theorem Entry.Sourced.mono {entry : Entry C} (sourced : entry.Sourced stores key) :
    entry.Sourced more key := by
  cases entry with
  | full fullProposal => exact ⟨sourced.1.mono grown, sourced.2.mono grown⟩
  | proposalOnly proposal => exact ProposalStored.mono grown sourced
  | valueOnly value validity => exact ValidityReceived.mono grown sourced

end Mono

/-- The height of a key is at most that of every key from it on. -/
theorem height_le_of_keyLe {key other : C.Height × Round} (later : keyLe key other = true) :
    key.1 ≤ other.1 := by
  simp only [keyLe, Bool.or_eq_true, Bool.and_eq_true, decide_eq_true_eq] at later
  rcases later with below | ⟨same, -⟩
  · exact below.le
  · exact same.le

namespace FullProposalKeeper

/-- `store_value_at_pol_round` keeps an entry's id and makes a proposal full. -/
theorem completeProposal_upgrades (newValue : ProposedValue C) (entry : Entry C) :
    entry.Upgrades (completeProposal newValue entry) := by
  cases entry with
  | proposalOnly proposal =>
      simp only [completeProposal]
      split
      · next matching => exact ⟨matching.1.symm, fun _ => rfl, fun _ => rfl⟩
      · exact .refl _
  | full fullProposal => exact .refl _
  | valueOnly value validity => exact .refl _

theorem completeProposal_sourced {stores : List (Store C)} {key : C.Height × Round}
    {newValue : ProposedValue C} {entry : Entry C} (sourced : entry.Sourced stores key)
    (stored : Store.value newValue ∈ stores)
    (later : keyLe (newValue.height, newValue.round) key = true) :
    (completeProposal newValue entry).Sourced stores key := by
  cases entry with
  | proposalOnly proposal =>
      simp only [completeProposal]
      split
      · exact ⟨sourced, newValue, stored, rfl, rfl, height_le_of_keyLe later⟩
      · exact sourced
  | full fullProposal => exact sourced
  | valueOnly value validity => exact sourced

/-- `Store::apply`: one store into the keeper. -/
def Store.apply (keeper : FullProposalKeeper C) : Store C → FullProposalKeeper C
  | .proposal proposal => keeper.storeProposal proposal
  | .value value => keeper.storeValue value

/-- The keeper after a sequence of stores. -/
def storeAll (keeper : FullProposalKeeper C) (stores : List (Store C)) : FullProposalKeeper C :=
  stores.foldl Store.apply keeper

theorem storeAll_append_single (keeper : FullProposalKeeper C) (stores : List (Store C))
    (store : Store C) :
    keeper.storeAll (stores ++ [store]) = Store.apply (keeper.storeAll stores) store := by
  simp [storeAll]

/-- The entries of a height and round; none where the keeper has no such key. -/
def held (keeper : FullProposalKeeper C) (key : C.Height × Round) : List (Entry C) :=
  (keeper.entriesAt key).getD []

theorem held_of_entriesAt {keeper : FullProposalKeeper C} {key : C.Height × Round}
    {entries : List (Entry C)} (found : keeper.entriesAt key = some entries) :
    keeper.held key = entries := by
  simp [held, found]

theorem held_insert (keeper : FullProposalKeeper C) (key wanted : C.Height × Round)
    (entries : List (Entry C)) :
    (keeper.insert key entries).held wanted = if key = wanted then entries else keeper.held wanted := by
  unfold held
  rw [entriesAt_insert]
  split <;> rfl

theorem held_storeValueAtPolRound (keeper : FullProposalKeeper C) (newValue : ProposedValue C)
    (key : C.Height × Round) :
    (keeper.storeValueAtPolRound newValue).held key =
      if keyLe (newValue.height, newValue.round) key then
        (keeper.held key).map (completeProposal newValue)
      else keeper.held key := by
  unfold held
  rw [entriesAt_storeValueAtPolRound]
  cases keeper.entriesAt key with
  | none => split <;> rfl
  | some entries => rfl

theorem newEntry_proposal? (keeper : FullProposalKeeper C) (newProposal : SignedProposal C) :
    (keeper.newEntry newProposal).proposal? = some newProposal := by
  unfold newEntry
  split
  · rfl
  · split <;> rfl

section Loops

/-- Where the loop of `store_proposal` stops: at an entry of the proposal's id that holds a
proposal, or at the proposal's value, which it makes full. -/
def FillsProposal (newProposal : SignedProposal C) (entry filled : Entry C) : Prop :=
  filled.id = C.id newProposal.message.value ∧ filled.proposal?.isSome ∧
    (filled = entry ∨ ∃ validity, entry = .valueOnly newProposal.message.value validity ∧
      filled.proposal? = some newProposal ∧ filled.validity? = some validity)

/-- Where the loop of `store_value_at_value_round` stops: at an entry of the value's id that
holds a validity, or at a proposal of its id, which it makes full. -/
def FillsValue (newValue : ProposedValue C) (entry filled : Entry C) : Prop :=
  filled.id = C.id newValue.value ∧ filled.validity?.isSome ∧
    (filled = entry ∨ ∃ proposal, ∃ same : C.id newValue.value = C.id proposal.message.value,
      entry = .proposalOnly proposal ∧ filled = .full ⟨newValue.value, newValue.validity, proposal, same⟩)

theorem FillsProposal.upgrades {newProposal : SignedProposal C} {entry filled : Entry C}
    (fills : FillsProposal newProposal entry filled) : entry.Upgrades filled := by
  obtain ⟨sameId, -, same | ⟨validity, rfl, -, valued⟩⟩ := fills
  · rw [same]
    exact .refl entry
  · exact ⟨sameId, fun absent => by simp [Entry.proposal?] at absent, fun _ => by simp [valued]⟩

theorem FillsValue.upgrades {newValue : ProposedValue C} {entry filled : Entry C}
    (fills : FillsValue newValue entry filled) : entry.Upgrades filled := by
  obtain ⟨-, -, same | ⟨proposal, same, rfl, rfl⟩⟩ := fills
  · rw [same]
    exact .refl entry
  · exact ⟨same, fun _ => rfl, fun _ => rfl⟩

/-- Where the loop of `store_proposal` returns, it changed one entry, the one it stopped at. -/
theorem storeProposalIn_fills {newProposal : SignedProposal C} {entries stored : List (Entry C)}
    (returned : storeProposalIn newProposal entries = some stored) :
    ReplacesOne (FillsProposal newProposal) entries stored := by
  induction entries generalizing stored with
  | nil => cases returned
  | cons entry rest ih =>
      cases entry with
      | full fullProposal =>
          simp only [storeProposalIn] at returned
          split_ifs at returned with same
          · cases returned
            exact .head ⟨by simp [Entry.id, fullProposal.sameId, same], rfl, .inl rfl⟩ rest
          · exact .of_map_cons (fun _ => ih) returned
      | valueOnly value validity =>
          simp only [storeProposalIn] at returned
          split_ifs at returned with same
          · cases returned
            subst same
            exact .head ⟨rfl, rfl, .inr ⟨validity, rfl, rfl, rfl⟩⟩ rest
          · exact .of_map_cons (fun _ => ih) returned
      | proposalOnly proposal =>
          simp only [storeProposalIn] at returned
          split_ifs at returned with same
          · cases returned
            exact .head ⟨same, rfl, .inl rfl⟩ rest
          · exact .of_map_cons (fun _ => ih) returned

/-- Where the loop of `store_proposal` runs to the end, no entry has the proposal's id.  It
compares a stored value with the proposal's by value, so this needs ids that tell values
apart. -/
theorem storeProposalIn_eq_none (injective : Function.Injective C.id)
    {newProposal : SignedProposal C} {entries : List (Entry C)}
    (ended : storeProposalIn newProposal entries = none) :
    C.id newProposal.message.value ∉ entries.map Entry.id := by
  induction entries with
  | nil => simp
  | cons entry rest ih =>
      cases entry with
      | full fullProposal =>
          simp only [storeProposalIn] at ended
          split_ifs at ended with same
          have rest := ih (Option.map_eq_none_iff.mp ended)
          simp only [List.map_cons, List.mem_cons, Entry.id, fullProposal.sameId, not_or]
          exact ⟨Ne.symm same, rest⟩
      | valueOnly value validity =>
          simp only [storeProposalIn] at ended
          split_ifs at ended with same
          have rest := ih (Option.map_eq_none_iff.mp ended)
          simp only [List.map_cons, List.mem_cons, Entry.id, not_or]
          exact ⟨fun sameId => same (injective sameId).symm, rest⟩
      | proposalOnly proposal =>
          simp only [storeProposalIn] at ended
          split_ifs at ended with same
          have rest := ih (Option.map_eq_none_iff.mp ended)
          simp only [List.map_cons, List.mem_cons, Entry.id, not_or]
          exact ⟨Ne.symm same, rest⟩

theorem storeValueIn_fills {newValue : ProposedValue C} {entries stored : List (Entry C)}
    (returned : storeValueIn newValue entries = some stored) :
    ReplacesOne (FillsValue newValue) entries stored := by
  induction entries generalizing stored with
  | nil => cases returned
  | cons entry rest ih =>
      cases entry with
      | full fullProposal =>
          simp only [storeValueIn] at returned
          split_ifs at returned with same
          · cases returned
            exact .head ⟨by simp [Entry.id, fullProposal.sameId, same], rfl, .inl rfl⟩ rest
          · exact .of_map_cons (fun _ => ih) returned
      | valueOnly value validity =>
          simp only [storeValueIn] at returned
          split_ifs at returned with same
          · cases returned
            exact .head ⟨same, rfl, .inl rfl⟩ rest
          · exact .of_map_cons (fun _ => ih) returned
      | proposalOnly proposal =>
          simp only [storeValueIn] at returned
          split_ifs at returned with same
          · cases returned
            exact .head ⟨rfl, rfl, .inr ⟨proposal, same.symm, rfl, rfl⟩⟩ rest
          · exact .of_map_cons (fun _ => ih) returned

/-- The loop of `store_value_at_value_round` compares ids throughout: where it runs to the
end, no entry has the value's id. -/
theorem storeValueIn_eq_none {newValue : ProposedValue C} {entries : List (Entry C)}
    (ended : storeValueIn newValue entries = none) : C.id newValue.value ∉ entries.map Entry.id := by
  induction entries with
  | nil => simp
  | cons entry rest ih =>
      cases entry with
      | full fullProposal =>
          simp only [storeValueIn] at ended
          split_ifs at ended with same
          have rest := ih (Option.map_eq_none_iff.mp ended)
          simp only [List.map_cons, List.mem_cons, Entry.id, fullProposal.sameId, not_or]
          exact ⟨Ne.symm same, rest⟩
      | valueOnly value validity =>
          simp only [storeValueIn] at ended
          split_ifs at ended with same
          have rest := ih (Option.map_eq_none_iff.mp ended)
          simp only [List.map_cons, List.mem_cons, Entry.id, not_or]
          exact ⟨Ne.symm same, rest⟩
      | proposalOnly proposal =>
          simp only [storeValueIn] at ended
          split_ifs at ended with same
          have rest := ih (Option.map_eq_none_iff.mp ended)
          simp only [List.map_cons, List.mem_cons, Entry.id, not_or]
          exact ⟨fun sameId => same sameId.symm, rest⟩

end Loops

section Upgrades

/-- No entry is lost, and none gives up what it holds. -/
def Upgrades (keeper next : FullProposalKeeper C) : Prop :=
  ∀ key, ∀ entry ∈ keeper.held key, ∃ later ∈ next.held key, entry.Upgrades later

theorem Upgrades.trans {keeper middle next : FullProposalKeeper C} (first : keeper.Upgrades middle)
    (second : middle.Upgrades next) : keeper.Upgrades next := by
  intro key entry member
  obtain ⟨between, betweenMember, firstStep⟩ := first key entry member
  obtain ⟨later, laterMember, secondStep⟩ := second key between betweenMember
  exact ⟨later, laterMember, firstStep.trans secondStep⟩

theorem upgrades_insert {keeper : FullProposalKeeper C} {key : C.Height × Round}
    {entries : List (Entry C)} (kept : ∀ entry ∈ keeper.held key, ∃ later ∈ entries, entry.Upgrades later) :
    keeper.Upgrades (keeper.insert key entries) := by
  intro wanted entry member
  rw [held_insert]
  split
  · next same =>
      subst same
      exact kept entry member
  · exact ⟨entry, member, .refl entry⟩

/-- Everything `store_proposal` does to what the keeper holds: it upgrades every entry, and
the proposal's round then holds an entry of its id that holds a proposal. -/
theorem storeProposal_fills (keeper : FullProposalKeeper C) (newProposal : SignedProposal C) :
    keeper.Upgrades (keeper.storeProposal newProposal) ∧
      ∃ entry ∈ (keeper.storeProposal newProposal).held
          (newProposal.message.height, newProposal.message.round),
        entry.id = C.id newProposal.message.value ∧ entry.proposal?.isSome := by
  have fresh : (keeper.newEntry newProposal).id = C.id newProposal.message.value ∧
      (keeper.newEntry newProposal).proposal?.isSome := by
    simp [newEntry_id, newEntry_proposal?]
  dsimp only [storeProposal]
  split
  · next absent =>
      refine ⟨upgrades_insert fun entry member => ?_, ⟨_, by simp [held_insert], fresh⟩⟩
      simp [held, absent] at member
  · next entries found =>
      split
      · next stored returned =>
          have replaces := storeProposalIn_fills returned
          obtain ⟨_, _, filled, member, fills⟩ := replaces.exists_related
          refine ⟨upgrades_insert ?_, ⟨filled, by simpa [held_insert] using member, fills.1, fills.2.1⟩⟩
          rw [held_of_entriesAt found]
          exact replaces.exists_of_mem Entry.Upgrades.refl fun _ _ fills => fills.upgrades
      · refine ⟨upgrades_insert fun entry member => ⟨entry, ?_, .refl entry⟩,
          ⟨_, by simp [held_insert], fresh⟩⟩
        rw [held_of_entriesAt found] at member
        exact List.mem_append_left _ member

theorem storeValueAtValueRound_fills (keeper : FullProposalKeeper C) (newValue : ProposedValue C) :
    keeper.Upgrades (keeper.storeValueAtValueRound newValue) ∧
      ∃ entry ∈ (keeper.storeValueAtValueRound newValue).held (newValue.height, newValue.round),
        entry.id = C.id newValue.value ∧ entry.validity?.isSome := by
  have fresh : (Entry.valueOnly newValue.value newValue.validity).id = C.id newValue.value ∧
      (Entry.valueOnly newValue.value newValue.validity).validity?.isSome := ⟨rfl, rfl⟩
  dsimp only [storeValueAtValueRound]
  split
  · next absent =>
      refine ⟨upgrades_insert fun entry member => ?_, ⟨_, by simp [held_insert], fresh⟩⟩
      simp [held, absent] at member
  · next entries found =>
      split
      · next stored returned =>
          have replaces := storeValueIn_fills returned
          obtain ⟨_, _, filled, member, fills⟩ := replaces.exists_related
          refine ⟨upgrades_insert ?_, ⟨filled, by simpa [held_insert] using member, fills.1, fills.2.1⟩⟩
          rw [held_of_entriesAt found]
          exact replaces.exists_of_mem Entry.Upgrades.refl fun _ _ fills => fills.upgrades
      · refine ⟨upgrades_insert fun entry member => ⟨entry, ?_, .refl entry⟩,
          ⟨_, by simp [held_insert], fresh⟩⟩
        rw [held_of_entriesAt found] at member
        exact List.mem_append_left _ member

theorem storeValueAtPolRound_upgrades (keeper : FullProposalKeeper C) (newValue : ProposedValue C) :
    keeper.Upgrades (keeper.storeValueAtPolRound newValue) := by
  intro key entry member
  rw [held_storeValueAtPolRound]
  split
  · exact ⟨_, List.mem_map_of_mem member, completeProposal_upgrades newValue entry⟩
  · exact ⟨entry, member, .refl entry⟩

/-- Everything `store_value` does to what the keeper holds: it upgrades every entry, and the
value's round then holds an entry of its id that holds a validity. -/
theorem storeValue_fills (keeper : FullProposalKeeper C) (newValue : ProposedValue C) :
    keeper.Upgrades (keeper.storeValue newValue) ∧
      ∃ entry ∈ (keeper.storeValue newValue).held (newValue.height, newValue.round),
        entry.id = C.id newValue.value ∧ entry.validity?.isSome := by
  obtain ⟨first, entry, member, sameId, valued⟩ := keeper.storeValueAtValueRound_fills newValue
  have second := (keeper.storeValueAtValueRound newValue).storeValueAtPolRound_upgrades newValue
  obtain ⟨later, laterMember, upgraded⟩ := second _ entry member
  exact ⟨first.trans second, later, laterMember, upgraded.id.trans sameId, upgraded.validity valued⟩

end Upgrades

section Sourced

variable {stores : List (Store C)} {keeper : FullProposalKeeper C}

/-- Every entry the keeper holds is made of what was stored. -/
def Sourced (stores : List (Store C)) (keeper : FullProposalKeeper C) : Prop :=
  ∀ key, ∀ entry ∈ keeper.held key, entry.Sourced stores key

theorem sourced_new (stores : List (Store C)) : (new : FullProposalKeeper C).Sourced stores := by
  intro key entry member
  simp [held] at member

theorem Sourced.mono {more : List (Store C)} (sourced : keeper.Sourced stores)
    (grown : ∀ store ∈ stores, store ∈ more) : keeper.Sourced more :=
  fun key entry member => (sourced key entry member).mono grown

theorem Sourced.insert (sourced : keeper.Sourced stores) {key : C.Height × Round}
    {entries : List (Entry C)} (written : ∀ entry ∈ entries, entry.Sourced stores key) :
    (keeper.insert key entries).Sourced stores := by
  intro wanted entry member
  rw [held_insert] at member
  split at member
  · next same =>
      subst same
      exact written entry member
  · exact sourced wanted entry member

/-- `get_value` hands back the validity of a value of the id it was asked for. -/
theorem Sourced.getValue (sourced : keeper.Sourced stores) {height : C.Height} {round : Round}
    {value returned : C.Value} {validity : Validity}
    (found : keeper.getValue height round value = some (returned, validity)) :
    ValidityReceived stores (height, round) (C.id value) validity := by
  unfold FullProposalKeeper.getValue at found
  split at found
  · cases found
  · next entries present =>
      obtain ⟨entry, member, hit⟩ := List.exists_of_findSome?_eq_some found
      have entrySourced := sourced _ entry (by rw [held_of_entriesAt present]; exact member)
      cases entry with
      | full fullProposal =>
          dsimp only at hit
          split_ifs at hit with same
          cases hit
          have received := entrySourced.2
          rwa [fullProposal.sameId, same] at received
      | valueOnly stored storedValidity =>
          dsimp only at hit
          split_ifs at hit with same
          cases hit
          rwa [Entry.Sourced, same] at entrySourced
      | proposalOnly proposal => cases hit

theorem Sourced.newEntry (sourced : keeper.Sourced stores) {newProposal : SignedProposal C}
    (stored : Store.proposal newProposal ∈ stores) :
    (keeper.newEntry newProposal).Sourced stores
      (newProposal.message.height, newProposal.message.round) := by
  unfold FullProposalKeeper.newEntry
  split
  · exact ⟨stored, rfl⟩
  · split
    · exact ⟨stored, rfl⟩
    · next validity found =>
        -- the value was found at the proposal's lock round, of the same height
        have received := sourced.getValue found
        exact ⟨⟨stored, rfl⟩, received⟩

theorem Sourced.storeProposal (sourced : keeper.Sourced stores) {newProposal : SignedProposal C}
    (stored : Store.proposal newProposal ∈ stores) :
    (keeper.storeProposal newProposal).Sourced stores := by
  have fresh := sourced.newEntry stored
  dsimp only [FullProposalKeeper.storeProposal]
  split
  · exact sourced.insert (by simpa using fresh)
  · next entries found =>
      have old : ∀ entry ∈ entries, entry.Sourced stores
          (newProposal.message.height, newProposal.message.round) :=
        fun entry member => sourced _ entry (by rw [held_of_entriesAt found]; exact member)
      split
      · next filled returned =>
          refine sourced.insert ((storeProposalIn_fills returned).forall_mem old ?_)
          rintro before after ⟨sameId, -, rfl | ⟨validity, rfl, proposed, valued⟩⟩ beforeSourced
          · exact beforeSourced
          · refine Entry.sourced_of_holds (fun proposal held => ?_) (fun validity' held => ?_)
            · rw [proposed] at held
              cases held
              exact ⟨stored, rfl⟩
            · rw [valued] at held
              cases held
              rw [sameId]
              exact beforeSourced
      · refine sourced.insert fun entry member => ?_
        rcases List.mem_append.mp member with member | member
        · exact old entry member
        · rw [List.mem_singleton.mp member]
          exact fresh

theorem Sourced.storeValueAtValueRound (sourced : keeper.Sourced stores)
    {newValue : ProposedValue C} (stored : Store.value newValue ∈ stores) :
    (keeper.storeValueAtValueRound newValue).Sourced stores := by
  have received : ValidityReceived stores (newValue.height, newValue.round) (C.id newValue.value)
      newValue.validity := ⟨newValue, stored, rfl, rfl, le_rfl⟩
  dsimp only [FullProposalKeeper.storeValueAtValueRound]
  split
  · exact sourced.insert (by simpa [Entry.Sourced] using received)
  · next entries found =>
      have old : ∀ entry ∈ entries, entry.Sourced stores (newValue.height, newValue.round) :=
        fun entry member => sourced _ entry (by rw [held_of_entriesAt found]; exact member)
      split
      · next filled returned =>
          refine sourced.insert ((storeValueIn_fills returned).forall_mem old ?_)
          rintro before after ⟨-, -, rfl | ⟨proposal, same, rfl, rfl⟩⟩ beforeSourced
          · exact beforeSourced
          · exact ⟨beforeSourced, received⟩
      · refine sourced.insert fun entry member => ?_
        rcases List.mem_append.mp member with member | member
        · exact old entry member
        · rw [List.mem_singleton.mp member]
          exact received

theorem Sourced.storeValueAtPolRound (sourced : keeper.Sourced stores)
    {newValue : ProposedValue C} (stored : Store.value newValue ∈ stores) :
    (keeper.storeValueAtPolRound newValue).Sourced stores := by
  intro key entry member
  rw [held_storeValueAtPolRound] at member
  split at member
  · next later =>
      obtain ⟨before, beforeMember, rfl⟩ := List.mem_map.mp member
      exact completeProposal_sourced (sourced key before beforeMember) stored later
  · exact sourced key entry member

theorem Sourced.apply (sourced : keeper.Sourced stores) {store : Store C} (stored : store ∈ stores) :
    (Store.apply keeper store).Sourced stores := by
  cases store with
  | proposal newProposal => exact sourced.storeProposal stored
  | value newValue => exact (sourced.storeValueAtValueRound stored).storeValueAtPolRound stored

/-- Over a run of stores from an empty keeper, every entry is made of what was stored. -/
theorem sourced_storeAll (stores : List (Store C)) : (new.storeAll stores).Sourced stores := by
  induction stores using List.reverseRecOn with
  | nil => exact sourced_new []
  | append_singleton stores store ih =>
      rw [storeAll_append_single]
      exact (ih.mono fun _ member => List.mem_append_left _ member).apply (by simp)

end Sourced

section Queries

variable {keeper : FullProposalKeeper C} {height : C.Height} {round : Round}
  {fullProposal : FullProposal C}

/-- What `full_proposal_at_round_and_value` hands back is a full entry of the round. -/
theorem fullProposalAtRoundAndValue_held {valueId : C.ValueId}
    (found : keeper.fullProposalAtRoundAndValue height round valueId = some fullProposal) :
    Entry.full fullProposal ∈ keeper.held (height, round) ∧
      C.id fullProposal.proposal.message.value = valueId := by
  unfold fullProposalAtRoundAndValue at found
  split at found
  · cases found
  · next entries present =>
      obtain ⟨entry, member, hit⟩ := List.exists_of_findSome?_eq_some found
      have held : entry ∈ keeper.held (height, round) := by
        rw [held_of_entriesAt (Option.filter_eq_some_iff.mp present).1]
        exact member
      cases entry with
      | full candidate =>
          dsimp only at hit
          split_ifs at hit with same
          cases hit
          exact ⟨held, same⟩
      | proposalOnly proposal => cases hit
      | valueOnly value validity => cases hit

/-- What `full_proposal_at_round_and_proposer` hands back is a full entry of the round. -/
theorem fullProposalAtRoundAndProposer_held {proposer : C.Address}
    (found : keeper.fullProposalAtRoundAndProposer height round proposer = some fullProposal) :
    Entry.full fullProposal ∈ keeper.held (height, round) ∧
      fullProposal.proposal.message.validatorAddress = proposer := by
  unfold fullProposalAtRoundAndProposer at found
  split at found
  · cases found
  · next entries present =>
      obtain ⟨entry, member, hit⟩ := List.exists_of_findSome?_eq_some found
      have held : entry ∈ keeper.held (height, round) := by
        rw [held_of_entriesAt (Option.filter_eq_some_iff.mp present).1]
        exact member
      cases entry with
      | full candidate =>
          dsimp only at hit
          split_ifs at hit with same
          cases hit
          exact ⟨held, same⟩
      | proposalOnly proposal => cases hit
      | valueOnly value validity => cases hit

/-- A full entry of the id makes `full_proposal_at_round_and_value` find one. -/
theorem fullProposalAtRoundAndValue_isSome {valueId : C.ValueId}
    (member : Entry.full fullProposal ∈ keeper.held (height, round))
    (sameId : C.id fullProposal.proposal.message.value = valueId) :
    (keeper.fullProposalAtRoundAndValue height round valueId).isSome := by
  unfold fullProposalAtRoundAndValue
  cases present : keeper.entriesAt (height, round) with
  | none => simp [held, present] at member
  | some entries =>
      have member : Entry.full fullProposal ∈ entries := by simpa [held, present] using member
      have nonempty : (!entries.isEmpty) = true := by
        simpa [List.isEmpty_iff] using List.ne_nil_of_mem member
      simp only [Option.filter_some, nonempty, if_true]
      exact List.findSome?_isSome_iff.mpr ⟨_, member, by simp [sameId]⟩

/-- What `proposals_for_value` hands back are the proposals of full entries of the value's
id, from the value's height and round on. -/
theorem mem_proposalsForValue {value : ProposedValue C} {proposal : SignedProposal C}
    (found : proposal ∈ keeper.proposalsForValue value) :
    ∃ key fullProposal, Entry.full fullProposal ∈ keeper.held key ∧
      fullProposal.proposal = proposal ∧ C.id proposal.message.value = C.id value.value ∧
      keyLe (value.height, value.round) key = true := by
  unfold proposalsForValue range at found
  obtain ⟨⟨key, entries⟩, inRange, picked⟩ := List.mem_flatMap.mp found
  obtain ⟨inKeeper, later⟩ := List.mem_filter.mp (List.mem_mergeSort.mp inRange)
  obtain ⟨entry, member, hit⟩ := List.mem_filterMap.mp picked
  have held : entry ∈ keeper.held key := by
    rw [held_of_entriesAt (KeyMap.get?_of_mem keeper.distinct inKeeper)]
    exact member
  cases entry with
  | full candidate =>
      dsimp only at hit
      split_ifs at hit with same
      cases hit
      exact ⟨key, candidate, held, rfl, same, later⟩
  | proposalOnly proposal => cases hit
  | valueOnly value validity => cases hit

end Queries

/-- Over any run of stores from an empty keeper, the full proposals the keeper hands back by
round and value, by round and proposer, or for a value, are made of what was stored: the
proposal was stored, for that height and round, and the validity came with a stored value
of the proposal's id, for that height or a lower one. -/
theorem full_proposals_from_stores (stores : List (Store C)) :
    (∀ height round valueId fullProposal,
        (new.storeAll stores).fullProposalAtRoundAndValue height round valueId = some fullProposal →
          ProposalStored stores (height, round) fullProposal.proposal ∧
            C.id fullProposal.proposal.message.value = valueId ∧
            ValidityReceived stores (height, round) valueId fullProposal.validity) ∧
      (∀ height round proposer fullProposal,
        (new.storeAll stores).fullProposalAtRoundAndProposer height round proposer =
            some fullProposal →
          ProposalStored stores (height, round) fullProposal.proposal ∧
            fullProposal.proposal.message.validatorAddress = proposer ∧
            ValidityReceived stores (height, round) (C.id fullProposal.proposal.message.value)
              fullProposal.validity) ∧
      ∀ value, ∀ proposal ∈ (new.storeAll stores).proposalsForValue value,
        Store.proposal proposal ∈ stores ∧ C.id proposal.message.value = C.id value.value ∧
          keyLe (value.height, value.round)
            (proposal.message.height, proposal.message.round) = true := by
  have sourced := sourced_storeAll stores
  refine ⟨fun height round valueId fullProposal found => ?_,
    fun height round proposer fullProposal found => ?_, fun value proposal found => ?_⟩
  · obtain ⟨member, sameId⟩ := fullProposalAtRoundAndValue_held found
    obtain ⟨stored, received⟩ := sourced _ _ member
    rw [fullProposal.sameId, sameId] at received
    exact ⟨stored, sameId, received⟩
  · obtain ⟨member, sameProposer⟩ := fullProposalAtRoundAndProposer_held found
    obtain ⟨stored, received⟩ := sourced _ _ member
    rw [fullProposal.sameId] at received
    exact ⟨stored, sameProposer, received⟩
  · obtain ⟨key, fullProposal, member, rfl, sameId, later⟩ := mem_proposalsForValue found
    obtain ⟨⟨stored, atKey⟩, -⟩ := sourced _ _ member
    exact ⟨stored, sameId, atKey ▸ later⟩

section Complete

variable {stores : List (Store C)} {keeper next : FullProposalKeeper C}

/-- What the keeper holds of each store: at a stored proposal's height and round an entry of
its value's id that holds a proposal, and at a stored value's an entry of its id that holds a
validity. -/
structure Holds (stores : List (Store C)) (keeper : FullProposalKeeper C) : Prop where
  proposal : ∀ proposal, Store.proposal proposal ∈ stores →
    ∃ entry ∈ keeper.held (proposal.message.height, proposal.message.round),
      entry.id = C.id proposal.message.value ∧ entry.proposal?.isSome
  value : ∀ value, Store.value value ∈ stores →
    ∃ entry ∈ keeper.held (value.height, value.round),
      entry.id = C.id value.value ∧ entry.validity?.isSome

theorem holds_nil (keeper : FullProposalKeeper C) : Holds [] keeper :=
  ⟨fun _ absent => (List.not_mem_nil absent).elim, fun _ absent => (List.not_mem_nil absent).elim⟩

theorem Holds.upgrade (holds : Holds stores keeper) (upgrades : keeper.Upgrades next) :
    Holds stores next := by
  constructor
  · intro proposal stored
    obtain ⟨entry, member, sameId, proposed⟩ := holds.proposal proposal stored
    obtain ⟨later, laterMember, upgraded⟩ := upgrades _ entry member
    exact ⟨later, laterMember, upgraded.id.trans sameId, upgraded.proposal proposed⟩
  · intro value stored
    obtain ⟨entry, member, sameId, valued⟩ := holds.value value stored
    obtain ⟨later, laterMember, upgraded⟩ := upgrades _ entry member
    exact ⟨later, laterMember, upgraded.id.trans sameId, upgraded.validity valued⟩

theorem Holds.apply (holds : Holds stores keeper) (store : Store C) :
    Holds (stores ++ [store]) (Store.apply keeper store) := by
  cases store with
  | proposal newProposal =>
      obtain ⟨upgrades, filled⟩ := keeper.storeProposal_fills newProposal
      have kept := holds.upgrade upgrades
      constructor
      · intro proposal stored
        rcases List.mem_append.mp stored with old | new
        · exact kept.proposal proposal old
        · cases List.mem_singleton.mp new
          exact filled
      · intro value stored
        rcases List.mem_append.mp stored with old | new
        · exact kept.value value old
        · cases List.mem_singleton.mp new
  | value newValue =>
      obtain ⟨upgrades, filled⟩ := keeper.storeValue_fills newValue
      have kept := holds.upgrade upgrades
      constructor
      · intro proposal stored
        rcases List.mem_append.mp stored with old | new
        · exact kept.proposal proposal old
        · cases List.mem_singleton.mp new
      · intro value stored
        rcases List.mem_append.mp stored with old | new
        · exact kept.value value old
        · cases List.mem_singleton.mp new
          exact filled

theorem holds_storeAll (stores : List (Store C)) : Holds stores (new.storeAll stores) := by
  induction stores using List.reverseRecOn with
  | nil => exact holds_nil _
  | append_singleton stores store ih =>
      rw [storeAll_append_single]
      exact ih.apply store

/-- Each round holds at most one entry of a value id. -/
def Distinct (keeper : FullProposalKeeper C) : Prop :=
  ∀ key, (keeper.idsAt key).Nodup

theorem Distinct.insert (distinct : keeper.Distinct) {key : C.Height × Round}
    {entries : List (Entry C)} (nodup : (entries.map Entry.id).Nodup) :
    (keeper.insert key entries).Distinct := by
  intro wanted
  rw [idsAt_insert]
  split
  · exact nodup
  · exact distinct wanted

/-- An entry of a new id appended to a round keeps its ids distinct. -/
theorem nodup_append_fresh {entries : List (Entry C)} {entry : Entry C}
    (nodup : (entries.map Entry.id).Nodup) (fresh : entry.id ∉ entries.map Entry.id) :
    ((entries ++ [entry]).map Entry.id).Nodup := by
  rw [List.map_append, List.map_singleton, List.nodup_append_comm]
  exact List.nodup_cons.mpr ⟨fresh, nodup⟩

theorem Distinct.storeProposal (injective : Function.Injective C.id) (distinct : keeper.Distinct)
    (newProposal : SignedProposal C) : (keeper.storeProposal newProposal).Distinct := by
  dsimp only [FullProposalKeeper.storeProposal]
  split
  · exact distinct.insert (List.nodup_singleton _)
  · next entries found =>
      have ids : (entries.map Entry.id).Nodup := by
        simpa [idsAt, found] using distinct (newProposal.message.height, newProposal.message.round)
      split
      · next stored returned =>
          exact distinct.insert ((storeProposalIn_ids returned).1 ▸ ids)
      · next ended =>
          refine distinct.insert (nodup_append_fresh ids ?_)
          rw [newEntry_id]
          exact storeProposalIn_eq_none injective ended

theorem Distinct.storeValue (distinct : keeper.Distinct) (newValue : ProposedValue C) :
    (keeper.storeValue newValue).Distinct := by
  have first : (keeper.storeValueAtValueRound newValue).Distinct := by
    dsimp only [FullProposalKeeper.storeValueAtValueRound]
    split
    · exact distinct.insert (List.nodup_singleton _)
    · next entries found =>
        have ids : (entries.map Entry.id).Nodup := by
          simpa [idsAt, found] using distinct (newValue.height, newValue.round)
        split
        · next stored returned =>
            exact distinct.insert ((storeValueIn_ids returned).1 ▸ ids)
        · next ended => exact distinct.insert (nodup_append_fresh ids (storeValueIn_eq_none ended))
  intro key
  rw [FullProposalKeeper.storeValue, idsAt_storeValueAtPolRound]
  exact first key

theorem distinct_storeAll (injective : Function.Injective C.id) (stores : List (Store C)) :
    (new.storeAll stores).Distinct := by
  induction stores using List.reverseRecOn with
  | nil => exact fun _ => List.nodup_nil
  | append_singleton stores store ih =>
      rw [storeAll_append_single]
      cases store with
      | proposal newProposal => exact ih.storeProposal injective newProposal
      | value newValue => exact ih.storeValue newValue

/-- With one entry per id, the entry that holds a stored proposal is the one that holds a
stored value of its id and round: it is full. -/
theorem Holds.full_of_distinct (holds : Holds stores keeper) (distinct : keeper.Distinct)
    {proposal : SignedProposal C} {value : ProposedValue C}
    (proposed : Store.proposal proposal ∈ stores) (received : Store.value value ∈ stores)
    (sameKey : (value.height, value.round) = (proposal.message.height, proposal.message.round))
    (sameId : C.id value.value = C.id proposal.message.value) :
    ∃ fullProposal, Entry.full fullProposal ∈ keeper.held (proposal.message.height, proposal.message.round) ∧
      C.id fullProposal.proposal.message.value = C.id proposal.message.value := by
  obtain ⟨entry, member, entryId, holdsProposal⟩ := holds.proposal proposal proposed
  obtain ⟨other, otherMember, otherId, holdsValidity⟩ := holds.value value received
  rw [sameKey] at otherMember
  have same : other = entry :=
    List.inj_on_of_nodup_map (distinct _) otherMember member
      (otherId.trans (sameId.trans entryId.symm))
  subst same
  obtain ⟨fullProposal, rfl⟩ := Entry.exists_full_of_isSome holdsProposal holdsValidity
  exact ⟨fullProposal, member, fullProposal.sameId.symm.trans entryId⟩

end Complete

/-- With value ids that tell values apart, over any run of stores from an empty keeper, each
round holds at most one entry per value id, and once a proposal and a value of its id for
its height and round have both been stored, in either order and whatever came between,
`full_proposal_at_round_and_value` finds a full proposal of that id. -/
theorem stored_proposal_and_value_paired (injective : Function.Injective C.id)
    (stores : List (Store C)) :
    (∀ key, ((new.storeAll stores).idsAt key).Nodup) ∧
      ∀ proposal value, Store.proposal proposal ∈ stores → Store.value value ∈ stores →
        value.height = proposal.message.height → value.round = proposal.message.round →
        C.id value.value = C.id proposal.message.value →
        ((new.storeAll stores).fullProposalAtRoundAndValue proposal.message.height
          proposal.message.round (C.id proposal.message.value)).isSome := by
  have distinct := distinct_storeAll injective stores
  refine ⟨distinct, fun proposal value proposed received sameHeight sameRound sameId => ?_⟩
  obtain ⟨fullProposal, member, fullId⟩ :=
    (holds_storeAll stores).full_of_distinct distinct proposed received
      (by rw [sameHeight, sameRound]) sameId
  exact fullProposalAtRoundAndValue_isSome member fullId

/-- A value of round 0 stored before the proposal of its round, in the test context, whose
value ids are the values themselves. -/
theorem value_then_proposal_paired :
    let proposal : SignedProposal testContext := ⟨⟨0, .some 0, 5, .nil, 0⟩, 0⟩
    let value : ProposedValue testContext := ⟨0, .some 0, .nil, 0, 5, .valid⟩
    Function.Injective testContext.id ∧
      ((new.storeAll [.value value, .proposal proposal]).fullProposalAtRoundAndValue 0 (.some 0)
        5).isSome := by
  intro proposal value
  have injective : Function.Injective testContext.id := fun _ _ same => same
  exact ⟨injective, (stored_proposal_and_value_paired injective [.value value, .proposal proposal]).2
    proposal value (by simp) (by simp) rfl rfl rfl⟩

end FullProposalKeeper

end Malachite.Consensus
