import Malachite.StateMachine.Apply

namespace Malachite.StateMachine

/-! What every transition of the round state machine keeps: the height of the
state, and a vote it casts is ours, at the height and round it leaves the
state at.  Each helper of `apply` has its lemma; `apply` is then a split over
its arms. -/

variable {C : Context}

/-- The transition keeps the height, and votes only for `address` at the
height and round of the next state. -/
structure Transition.Casts (address : C.Address) (state : State C) (transition : Transition C) :
    Prop where
  height : transition.nextState.height = state.height
  vote : ∀ vote, transition.output = some (.vote vote) →
    vote.height = transition.nextState.height ∧ vote.round = transition.nextState.round ∧
      vote.validatorAddress = address

@[simp] theorem casts_ite {address : C.Address} {state : State C} {condition : Prop}
    [Decidable condition] {yes no : Transition C} :
    (if condition then yes else no).Casts address state ↔
      (condition → yes.Casts address state) ∧ (¬condition → no.Casts address state) := by
  split
  · simp_all
  · simp_all

@[simp] theorem invalid_casts (address : C.Address) (state : State C) :
    (Transition.invalid state).Casts address state :=
  ⟨rfl, by simp⟩

@[simp] theorem toState_casts (address : C.Address) (state : State C) :
    (Transition.toState state).Casts address state :=
  ⟨rfl, by simp⟩

@[simp] theorem proposeValidOrGetValue_casts (address : C.Address) (state : State C)
    (round : Round) : (proposeValidOrGetValue (state.withRound round) address).Casts address state := by
  unfold proposeValidOrGetValue
  split
  · exact ⟨rfl, by simp⟩
  · exact ⟨rfl, by simp⟩

@[simp] theorem scheduleTimeoutPropose_casts (address : C.Address) (state : State C)
    (round : Round) : (scheduleTimeoutPropose (state.withRound round)).Casts address state :=
  ⟨rfl, by simp [scheduleTimeoutPropose]⟩

@[simp] theorem propose_casts (address : C.Address) (state : State C) (value : C.Value) :
    (propose state value address).Casts address state :=
  ⟨rfl, by simp [propose]⟩

@[simp] theorem prevote_casts (address : C.Address) (state : State C) (proposal : Proposal C) :
    (prevote state address proposal).Casts address state :=
  ⟨rfl, by simp [prevote, Vote.newPrevote]⟩

@[simp] theorem prevotePrevious_casts (address : C.Address) (state : State C)
    (proposal : Proposal C) : (prevotePrevious state address proposal).Casts address state :=
  ⟨rfl, by simp [prevotePrevious, Vote.newPrevote]⟩

@[simp] theorem prevoteNil_casts (address : C.Address) (state : State C) :
    (prevoteNil state address).Casts address state :=
  ⟨rfl, by simp [prevoteNil, Vote.newPrevote]⟩

@[simp] theorem precommit_casts (address : C.Address) (state : State C) (proposal : Proposal C) :
    (precommit state address proposal).Casts address state := by
  unfold precommit
  split
  · exact toState_casts address state
  · exact ⟨rfl, by simp [Vote.newPrecommit]⟩

@[simp] theorem precommitNil_casts (address : C.Address) (state : State C) :
    (precommitNil state address).Casts address state :=
  ⟨rfl, by simp [precommitNil, Vote.newPrecommit]⟩

@[simp] theorem scheduleTimeoutPrevote_casts (address : C.Address) (state : State C) :
    (scheduleTimeoutPrevote state).Casts address state :=
  ⟨rfl, by simp [scheduleTimeoutPrevote]⟩

@[simp] theorem scheduleTimeoutPrecommit_casts (address : C.Address) (state : State C) :
    (scheduleTimeoutPrecommit state).Casts address state :=
  ⟨rfl, by simp [scheduleTimeoutPrecommit]⟩

@[simp] theorem setValidValue_casts (address : C.Address) (state : State C)
    (proposal : Proposal C) : (setValidValue state proposal).Casts address state :=
  ⟨rfl, by simp [setValidValue]⟩

@[simp] theorem roundSkip_casts (address : C.Address) (state : State C) (round : Round) :
    (roundSkip state round).Casts address state :=
  ⟨rfl, by simp [roundSkip]⟩

@[simp] theorem commit_casts (address : C.Address) (state : State C) (round : Round)
    (proposal : Proposal C) : (commit state round proposal).Casts address state := by
  unfold commit
  split
  · split
    · exact toState_casts address state
    · exact invalid_casts address state
  · exact ⟨rfl, by simp⟩

theorem apply_casts (state : State C) (info : Info C) (input : Input C) :
    (apply state info input).Casts info.address state := by
  unfold apply
  split <;> simp

end Malachite.StateMachine
