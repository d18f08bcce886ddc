import Malachite.Consensus.FullProposal
import Malachite.Lib.BoundedQueue
import Malachite.Driver.Basic
import Malachite.Wal.Entry

namespace Malachite.Consensus

/-! The two handlers of the consensus core that take a value:
`on_proposed_value` (`handle/proposed_value.rs`), for a value from the
application, the WAL or sync, and `on_propose` (`handle/propose.rs`), for the
value this node proposes.  Both append the value to the WAL the first time it
is seen and store it in the full-proposal keeper.

A handler performs effects and waits for the host to resume it.  The host
answers `SignProposal` with the proposal it signed, given here as
`signProposal`, and `WalAppend` with `Continue`; with the engine's typed
resumptions no other answer can come, so the model has no `UnexpectedResume`.
The proposals a handler then gives to `apply_driver_input` are its output,
as driver inputs; what the driver does with them is modelled elsewhere and is
not followed here. -/

variable {C : Context}

inductive ValuePayload where
  | proposalOnly
  | partsOnly
  | proposalAndParts
deriving DecidableEq, Repr

/-- `ValuePayload::parts_only`. -/
def ValuePayload.isPartsOnly : ValuePayload → Bool
  | .partsOnly => true
  | _ => false

inductive ValueOrigin where
  | sync
  | consensus
deriving DecidableEq, Repr

def ValueOrigin.isSync : ValueOrigin → Bool
  | .sync => true
  | .consensus => false

variable (C) in
/-- The consensus parameters the modelled handlers read; `enabled` is read by
none of them. -/
structure Params where
  initialHeight : C.Height
  initialValidatorSet : ValidatorSet C
  address : C.Address
  thresholdParams : ThresholdParams
  valuePayload : ValuePayload

variable (C) in
structure LocallyProposedValue where
  height : C.Height
  round : Round
  value : C.Value
deriving DecidableEq

variable (C) in
/-- The inputs of the consensus core that the modelled handlers take. -/
inductive Input where
  | propose (value : LocallyProposedValue C)
  | proposedValue (value : ProposedValue C) (origin : ValueOrigin)
deriving DecidableEq

variable (C) in
inductive SignedConsensusMsg where
  | vote (vote : SignedVote C)
  | proposal (proposal : SignedProposal C)
deriving DecidableEq

variable (C) in
/-- The entries of the WAL, as the codec of `Wal.Entry` writes them. -/
abbrev WalEntry := Wal.WalEntry (SignedConsensusMsg C) (ProposedValue C)

variable (C) in
/-- The effects the modelled handlers perform. -/
inductive Effect where
  | signProposal (proposal : Proposal C)
  | walAppend (height : C.Height) (entry : WalEntry C)
deriving DecidableEq

variable (C) in
/-- The consensus state, with the fields the modelled handlers use. -/
structure State where
  params : Params C
  driver : Driver C
  inputQueue : BoundedQueue C.Height (Input C)
  fullProposalKeeper : FullProposalKeeper C

namespace State

def new (params : Params C) (queueCapacity : Nat) : State C :=
  { params,
    driver := .new params.initialHeight params.initialValidatorSet params.address
      params.thresholdParams,
    inputQueue := .new queueCapacity,
    fullProposalKeeper := .new }

def height (state : State C) : C.Height := state.driver.height

def round (state : State C) : Round := state.driver.round

def address (state : State C) : C.Address := state.driver.address

end State

variable (C) in
/-- What a handler leaves: the state, the effects it performed in order, and
the inputs it gives to `apply_driver_input`. -/
structure Handled where
  state : State C
  effects : List (Effect C)
  driverInputs : List (Driver.Input C)

/-- The values a list of effects appends to the WAL. -/
def loggedValues (effects : List (Effect C)) : List (ProposedValue C) :=
  effects.filterMap fun
    | .walAppend _ (.proposedValue value) => some value
    | _ => none

/-- The WAL entry of a value seen for the first time, and none otherwise. -/
def logIfNew (keeper : FullProposalKeeper C) (proposedValue : ProposedValue C) : List (Effect C) :=
  if keeper.valueExists proposedValue then []
  else [.walAppend proposedValue.height (.proposedValue proposedValue)]

def onProposedValue (signProposal : Proposal C → SignedProposal C) (state : State C)
    (proposedValue : ProposedValue C) (origin : ValueOrigin) : Handled C :=
  if proposedValue.height < state.height then ⟨state, [], []⟩
  else if state.height < proposedValue.height then
    ⟨{ state with
        inputQueue :=
          (state.inputQueue.push proposedValue.height (.proposedValue proposedValue origin)).1 },
      [], []⟩
  else
    -- in parts-only mode and for a value from sync no proposal message comes,
    -- so the handler makes one, has it signed and stores it first
    let synthesized := state.params.valuePayload.isPartsOnly || origin.isSync
    let proposal : Proposal C :=
      ⟨proposedValue.height, proposedValue.round, proposedValue.value, proposedValue.validRound,
        proposedValue.proposer⟩
    let signing : List (Effect C) := if synthesized then [.signProposal proposal] else []
    let keeper := if synthesized then
        state.fullProposalKeeper.storeProposal (signProposal proposal)
      else state.fullProposalKeeper
    let logging := logIfNew keeper proposedValue
    let keeper := keeper.storeValue proposedValue
    ⟨{ state with fullProposalKeeper := keeper }, signing ++ logging,
      (keeper.proposalsForValue proposedValue).map fun proposal =>
        .proposal proposal proposedValue.validity⟩

/-- `verify_propose_value`: the value is for the current height and round, and
this node is the round's proposer.  `selectProposer` is
`Context::select_proposer`. -/
def verifyProposeValue (selectProposer : ValidatorSet C → C.Height → Round → Validator C)
    (state : State C) (localValue : LocallyProposedValue C) : Bool :=
  decide (state.height = localValue.height) && decide (state.round = localValue.round) &&
    decide ((selectProposer state.driver.validatorSet localValue.height localValue.round).address =
      state.address)

def onPropose (selectProposer : ValidatorSet C → C.Height → Round → Validator C)
    (state : State C) (localValue : LocallyProposedValue C) : Handled C :=
  if verifyProposeValue selectProposer state localValue then
    let proposedValue : ProposedValue C :=
      ⟨localValue.height, localValue.round, .nil, state.address, localValue.value, .valid⟩
    ⟨{ state with fullProposalKeeper := state.fullProposalKeeper.storeValue proposedValue },
      logIfNew state.fullProposalKeeper proposedValue,
      [.proposeValue localValue.round localValue.value]⟩
  else ⟨state, [], []⟩

/-- The two handlers, by input. -/
def handle (selectProposer : ValidatorSet C → C.Height → Round → Validator C)
    (signProposal : Proposal C → SignedProposal C) (state : State C) : Input C → Handled C
  | .propose localValue => onPropose selectProposer state localValue
  | .proposedValue proposedValue origin => onProposedValue signProposal state proposedValue origin

/-- Handle the inputs one after the other; the final state and all effects. -/
def run (selectProposer : ValidatorSet C → C.Height → Round → Validator C)
    (signProposal : Proposal C → SignedProposal C) (state : State C) :
    List (Input C) → State C × List (Effect C)
  | [] => (state, [])
  | input :: rest =>
      let handled := handle selectProposer signProposal state input
      let after := run selectProposer signProposal handled.state rest
      (after.1, handled.effects ++ after.2)


@[simp] theorem loggedValues_append (effects others : List (Effect C)) :
    loggedValues (effects ++ others) = loggedValues effects ++ loggedValues others := by
  simp [loggedValues, List.filterMap_append]

@[simp] theorem loggedValues_signProposal (proposal : Proposal C) (effects : List (Effect C)) :
    loggedValues (.signProposal proposal :: effects) = loggedValues effects := rfl

@[simp] theorem loggedValues_logIfNew (keeper : FullProposalKeeper C) (value : ProposedValue C) :
    loggedValues (logIfNew keeper value) = if keeper.valueExists value then [] else [value] := by
  unfold logIfNew
  split <;> rfl

/-- What `on_proposed_value` appends to the WAL for a value of the current
height: nothing where it made a proposal for the value, and otherwise the
value if its id is new at its round.  The host is taken to sign the proposal
it is given. -/
theorem onProposedValue_logged {signProposal : Proposal C → SignedProposal C}
    (signs : ∀ proposal, (signProposal proposal).message = proposal) (state : State C)
    {proposedValue : ProposedValue C} (current : proposedValue.height = state.height)
    (origin : ValueOrigin) :
    loggedValues (onProposedValue signProposal state proposedValue origin).effects =
      if (state.params.valuePayload.isPartsOnly || origin.isSync) ||
          state.fullProposalKeeper.valueExists proposedValue then []
      else [proposedValue] := by
  have notLower : ¬proposedValue.height < state.height := by rw [current]; exact lt_irrefl _
  have notHigher : ¬state.height < proposedValue.height := by rw [current]; exact lt_irrefl _
  simp only [onProposedValue, notLower, notHigher, if_false]
  cases synthesized : (state.params.valuePayload.isPartsOnly || origin.isSync)
  · simp
  · -- the proposal stored just before carries the value's height, round and id
    have stored : (state.fullProposalKeeper.storeProposal (signProposal
        ⟨proposedValue.height, proposedValue.round, proposedValue.value, proposedValue.validRound,
          proposedValue.proposer⟩)).valueExists proposedValue = true :=
      state.fullProposalKeeper.valueExists_storeProposal _ (by simp [signs, ProposedValue.key])
    simp [stored]

/-- A value seen for the first time at height 0: in parts-only mode, and for a
value from sync in any mode, it is not appended to the WAL; in
proposal-and-parts mode, from consensus, it is. -/
theorem first_value_unlogged :
    let value : ProposedValue testContext := ⟨0, .some 0, .nil, 0, 5, .valid⟩
    let sign : Proposal testContext → SignedProposal testContext := fun proposal => ⟨proposal, 0⟩
    let partsOnly : State testContext := .new ⟨0, fourValidators, 1, .default, .partsOnly⟩ 10
    let proposalAndParts : State testContext :=
      .new ⟨0, fourValidators, 1, .default, .proposalAndParts⟩ 10
    partsOnly.fullProposalKeeper.valueExists value = false ∧
      proposalAndParts.fullProposalKeeper.valueExists value = false ∧
      loggedValues (onProposedValue sign partsOnly value .consensus).effects = [] ∧
      loggedValues (onProposedValue sign proposalAndParts value .sync).effects = [] ∧
      loggedValues (onProposedValue sign proposalAndParts value .consensus).effects = [value] := by
  decide

/-- `on_propose` appends its value to the WAL exactly when it takes the value
and the value's id is new at its round. -/
theorem onPropose_logged (selectProposer : ValidatorSet C → C.Height → Round → Validator C)
    (state : State C) (localValue : LocallyProposedValue C) :
    let proposedValue : ProposedValue C :=
      ⟨localValue.height, localValue.round, .nil, state.address, localValue.value, .valid⟩
    loggedValues (onPropose selectProposer state localValue).effects =
      if verifyProposeValue selectProposer state localValue &&
          !state.fullProposalKeeper.valueExists proposedValue then [proposedValue]
      else [] := by
  intro proposedValue
  unfold onPropose
  cases verifyProposeValue selectProposer state localValue with
  | false => rfl
  | true =>
      show loggedValues (logIfNew state.fullProposalKeeper proposedValue) =
        if (true && !state.fullProposalKeeper.valueExists proposedValue) then [proposedValue] else []
      rw [loggedValues_logIfNew]
      cases state.fullProposalKeeper.valueExists proposedValue <;> rfl

/-- What one handler does to the keeper and the WAL: the keeper only grows,
and a value it logs was not in the keeper before and is in it after. -/
structure LogsFresh (keeper next : FullProposalKeeper C) (logged : List (ProposedValue C)) :
    Prop where
  grows : keeper.Grows next
  fresh : logged = [] ∨
    ∃ value, logged = [value] ∧ keeper.valueExists value = false ∧ next.valueExists value = true

theorem LogsFresh.refl (keeper : FullProposalKeeper C) : LogsFresh keeper keeper [] :=
  ⟨.refl keeper, Or.inl rfl⟩

/-- Both handlers log through `logIfNew` on a keeper that has only grown, then
store the value. -/
theorem logsFresh_logIfNew {keeper middle : FullProposalKeeper C} (grows : keeper.Grows middle)
    (value : ProposedValue C) :
    LogsFresh keeper (middle.storeValue value) (loggedValues (logIfNew middle value)) := by
  refine ⟨grows.trans (middle.storeValue_spec value).1, ?_⟩
  rw [loggedValues_logIfNew]
  cases seen : middle.valueExists value with
  | true => exact Or.inl rfl
  | false =>
      exact Or.inr ⟨value, rfl, FullProposalKeeper.valueExists_eq_false_of_grows grows seen,
        middle.valueExists_storeValue value⟩

theorem onPropose_logsFresh (selectProposer : ValidatorSet C → C.Height → Round → Validator C)
    (state : State C) (localValue : LocallyProposedValue C) :
    LogsFresh state.fullProposalKeeper (onPropose selectProposer state localValue).state.fullProposalKeeper
      (loggedValues (onPropose selectProposer state localValue).effects) := by
  unfold onPropose
  split
  · exact logsFresh_logIfNew (.refl _) _
  · exact ⟨.refl _, Or.inl rfl⟩

theorem onProposedValue_logsFresh (signProposal : Proposal C → SignedProposal C) (state : State C)
    (proposedValue : ProposedValue C) (origin : ValueOrigin) :
    LogsFresh state.fullProposalKeeper
      (onProposedValue signProposal state proposedValue origin).state.fullProposalKeeper
      (loggedValues (onProposedValue signProposal state proposedValue origin).effects) := by
  unfold onProposedValue
  split
  · exact ⟨.refl _, Or.inl rfl⟩
  · split
    -- a value for a later height is only queued
    · exact ⟨.refl _, Or.inl rfl⟩
    · dsimp only
      cases state.params.valuePayload.isPartsOnly || origin.isSync
      · simpa using logsFresh_logIfNew (.refl _) proposedValue
      · simpa using logsFresh_logIfNew
          (state.fullProposalKeeper.storeProposal_spec (signProposal _)).1 proposedValue

theorem handle_logsFresh (selectProposer : ValidatorSet C → C.Height → Round → Validator C)
    (signProposal : Proposal C → SignedProposal C) (state : State C) (input : Input C) :
    LogsFresh state.fullProposalKeeper
      (handle selectProposer signProposal state input).state.fullProposalKeeper
      (loggedValues (handle selectProposer signProposal state input).effects) := by
  cases input with
  | propose localValue => exact onPropose_logsFresh selectProposer state localValue
  | proposedValue proposedValue origin =>
      exact onProposedValue_logsFresh signProposal state proposedValue origin

/-- What a run of handlers does to the WAL: the values it logs have distinct
heights, rounds and ids, none was in the keeper at the start, and all are in
it at the end. -/
structure RunLogs (keeper final : FullProposalKeeper C) (logged : List (ProposedValue C)) :
    Prop where
  grows : keeper.Grows final
  distinct : (logged.map ProposedValue.key).Nodup
  fresh : ∀ value ∈ logged, keeper.valueExists value = false
  stored : ∀ value ∈ logged, final.valueExists value = true

theorem RunLogs.nil (keeper : FullProposalKeeper C) : RunLogs keeper keeper [] :=
  ⟨.refl keeper, List.nodup_nil, by simp, by simp⟩

theorem RunLogs.cons {keeper next final : FullProposalKeeper C}
    {logged rest : List (ProposedValue C)} (first : LogsFresh keeper next logged)
    (later : RunLogs next final rest) : RunLogs keeper final (logged ++ rest) := by
  have restFresh : ∀ value ∈ rest, keeper.valueExists value = false := fun value member =>
    FullProposalKeeper.valueExists_eq_false_of_grows first.grows (later.fresh value member)
  rcases first.fresh with rfl | ⟨value, rfl, absent, present⟩
  · exact ⟨first.grows.trans later.grows, later.distinct, restFresh, later.stored⟩
  · -- a later value of the same key would find the key held after this step
    have newKey : ∀ other ∈ rest, other.key ≠ value.key := by
      intro other otherMember sameKey
      have otherAbsent := later.fresh other otherMember
      rw [next.valueExists_congr sameKey, present] at otherAbsent
      cases otherAbsent
    refine ⟨first.grows.trans later.grows, ?_, ?_, ?_⟩
    · simpa using ⟨newKey, later.distinct⟩
    · simpa [absent] using restFresh
    · simpa [FullProposalKeeper.valueExists_of_grows later.grows present] using later.stored

/-- Over any run of the two handlers, no value is appended to the WAL twice
for one height, round and id, and each appended value was new to the keeper.

The run is of these two handlers alone: the driver inputs they hand to
`apply_driver_input` are collected, not applied, and the stores the driver's
side makes in between (a proposal through `on_proposal`, a decided or synced
value) are not followed.  Those stores only add to the keeper, so they can
only make `value_exists` hold sooner; what a full node logs is covered by
this theorem only for the runs in which they do not come between. -/
theorem run_logs_each_value_once (selectProposer : ValidatorSet C → C.Height → Round → Validator C)
    (signProposal : Proposal C → SignedProposal C) (state : State C) (inputs : List (Input C)) :
    RunLogs state.fullProposalKeeper
      (run selectProposer signProposal state inputs).1.fullProposalKeeper
      (loggedValues (run selectProposer signProposal state inputs).2) := by
  induction inputs generalizing state with
  | nil => exact RunLogs.nil _
  | cons input rest ih =>
      simp only [run, loggedValues_append]
      exact RunLogs.cons (handle_logsFresh selectProposer signProposal state input) (ih _)

end Malachite.Consensus
