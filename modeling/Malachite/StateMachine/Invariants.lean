import Malachite.StateMachine.Apply

namespace Malachite.StateMachine

/-! Two invariants of the round state machine over whole runs.

`Locking`: the valid value is never from a later round than the current one, and a locked
value always comes with a valid value of a round at least the locked one (the paper's
`validRound ≥ lockedRound`).  Along the machine's moves neither value is dropped and neither
moves to an earlier round.  Only a `NewRound` input can move the round back, since it takes
its round from the input; the moves exclude that, as the driver never starts an earlier
round.

`Decided`: the machine has decided exactly when it is at the commit step.  From there every
input is an invalid transition, so a run decides at most once and outputs nothing after the
decision. -/

variable {C : Context}

/-- A step of the machine, on any input but a `NewRound` to an earlier round. -/
inductive Moves : State C → State C → Prop
  | apply (state : State C) (info : Info C) (input : Input C)
      (forward : ∀ round, input = .newRound round → state.round ≤ round) :
      Moves state (apply state info input).nextState

/-- Apply the inputs one after the other: the final state and the outputs in order. -/
def run (state : State C) : List (Info C × Input C) → State C × List (Output C)
  | [] => (state, [])
  | (info, input) :: rest =>
      let transition := apply state info input
      let after := run transition.nextState rest
      (after.1, transition.output.toList ++ after.2)

theorem apply_of_commit (state : State C) (info : Info C) (input : Input C)
    (committed : state.step = .commit) : apply state info input = .invalid state := by
  unfold StateMachine.apply
  rw [committed]

section Locking

/-- `validRound ≥ lockedRound`, and neither above the current round. -/
structure Locking (state : State C) : Prop where
  validBelow : ∀ valid ∈ state.valid, valid.round ≤ state.round
  lockedBelowValid : ∀ locked ∈ state.locked, ∃ valid ∈ state.valid, locked.round ≤ valid.round

theorem locking_new (height : C.Height) (round : Round) :
    Locking (State.new height round : State C) :=
  ⟨by simp [State.new], by simp [State.new]⟩

/-- The next state is `Locking`, and keeps the locked and the valid value, or replaces them
by one of a round no earlier. -/
structure KeepsLocks (state next : State C) : Prop where
  locking : Locking next
  locked : ∀ lock ∈ state.locked, ∃ kept ∈ next.locked, lock.round ≤ kept.round
  valid : ∀ held ∈ state.valid, ∃ kept ∈ next.valid, held.round ≤ kept.round

variable {state : State C}

theorem KeepsLocks.refl (locking : Locking state) : KeepsLocks state state :=
  ⟨locking, fun lock member => ⟨lock, member, le_rfl⟩, fun held member => ⟨held, member, le_rfl⟩⟩

theorem KeepsLocks.trans {middle next : State C} (first : KeepsLocks state middle)
    (second : KeepsLocks middle next) : KeepsLocks state next := by
  refine ⟨second.locking, fun lock member => ?_, fun held member => ?_⟩
  · obtain ⟨kept, present, below⟩ := first.locked lock member
    obtain ⟨last, final, above⟩ := second.locked kept present
    exact ⟨last, final, le_trans below above⟩
  · obtain ⟨kept, present, below⟩ := first.valid held member
    obtain ⟨last, final, above⟩ := second.valid kept present
    exact ⟨last, final, le_trans below above⟩

/-- A state with the same locked and valid values at a round no earlier. -/
theorem Locking.keeps (locking : Locking state) {next : State C}
    (locked : next.locked = state.locked) (valid : next.valid = state.valid)
    (later : state.round ≤ next.round) : KeepsLocks state next := by
  refine ⟨⟨fun held member => ?_, fun lock member => ?_⟩, fun lock member => ?_,
    fun held member => ?_⟩
  · rw [valid] at member
    exact le_trans (locking.validBelow held member) later
  · rw [locked] at member
    rw [valid]
    exact locking.lockedBelowValid lock member
  · exact ⟨lock, locked ▸ member, le_rfl⟩
  · exact ⟨held, valid ▸ member, le_rfl⟩

theorem Locking.withRound (locking : Locking state) {round : Round}
    (later : state.round ≤ round) : KeepsLocks state (state.withRound round) :=
  locking.keeps rfl rfl later

theorem Locking.withStep (locking : Locking state) (step : Step) :
    KeepsLocks state (state.withStep step) :=
  locking.keeps rfl rfl le_rfl

/-- L36/L42: a valid value of the current round is at least as recent as the lock and as the
valid value it replaces. -/
theorem Locking.setValid (locking : Locking state) (value : C.Value) :
    KeepsLocks state (state.setValid value) := by
  refine ⟨⟨fun held member => ?_, fun lock member => ?_⟩, fun lock member => ?_,
    fun held member => ?_⟩
  · simp only [State.setValid_valid, Option.mem_def, Option.some.injEq] at member
    rw [← member]
    exact le_rfl
  · obtain ⟨valid, present, below⟩ := locking.lockedBelowValid lock member
    exact ⟨⟨value, state.round⟩, rfl, le_trans below (locking.validBelow valid present)⟩
  · exact ⟨lock, member, le_rfl⟩
  · exact ⟨⟨value, state.round⟩, rfl, locking.validBelow held member⟩

/-- L36: the lock and the valid value both move to the value at the current round. -/
theorem Locking.lock (locking : Locking state) (value : C.Value) :
    KeepsLocks state ((state.setLocked value).setValid value) := by
  refine ⟨⟨fun held member => ?_, fun lock member => ?_⟩, fun lock member => ?_,
    fun held member => ?_⟩
  · simp only [State.setValid_valid, Option.mem_def, Option.some.injEq] at member
    rw [← member]
    exact le_rfl
  · simp only [State.setValid_locked, State.setLocked_locked, Option.mem_def,
      Option.some.injEq] at member
    exact ⟨_, rfl, by rw [← member]; exact le_rfl⟩
  · obtain ⟨valid, present, below⟩ := locking.lockedBelowValid lock member
    exact ⟨⟨value, state.round⟩, rfl, le_trans below (locking.validBelow valid present)⟩
  · exact ⟨⟨value, state.round⟩, rfl, locking.validBelow held member⟩

theorem Locking.setDecision (locking : Locking state) (round : Round) (value : C.Value) :
    KeepsLocks state (state.setDecision round value) :=
  locking.keeps rfl rfl le_rfl

/-! Each helper of `apply` that changes more than the step, at the state it is given. -/

theorem Locking.proposeValidOrGetValue (locking : Locking state) (address : C.Address) :
    KeepsLocks state (proposeValidOrGetValue state address).nextState := by
  unfold StateMachine.proposeValidOrGetValue
  split <;> exact locking.withStep .propose

theorem Locking.precommit (locking : Locking state) (address : C.Address)
    (proposal : Proposal C) : KeepsLocks state (precommit state address proposal).nextState := by
  unfold StateMachine.precommit
  split
  · exact .refl locking
  · exact (locking.lock proposal.value).trans
      ((locking.lock proposal.value).locking.withStep .precommit)

theorem Locking.roundSkip (locking : Locking state) {round : Round}
    (later : state.round ≤ round) : KeepsLocks state (roundSkip state round).nextState :=
  (locking.withRound later).trans ((locking.withRound later).locking.withStep .unstarted)

theorem Locking.commit (locking : Locking state) (round : Round) (proposal : Proposal C) :
    KeepsLocks state (commit state round proposal).nextState := by
  unfold StateMachine.commit
  split
  · split <;> exact .refl locking
  · have decided := locking.setDecision proposal.round proposal.value
    exact decided.trans (decided.locking.withStep .commit)

/-- One transition keeps the locks, unless a `NewRound` takes the machine to an earlier
round. -/
theorem Locking.apply (locking : Locking state) (info : Info C) (input : Input C)
    (forward : ∀ round, input = .newRound round → state.round ≤ round) :
    KeepsLocks state (apply state info input).nextState := by
  unfold StateMachine.apply
  split
  all_goals dsimp only
  -- L11: the only arm that takes its round from the input
  case h_1 _ _ round _ =>
    have started := locking.withRound (forward round rfl)
    split
    · exact started.trans (started.locking.proposeValidOrGetValue info.address)
    · exact started.trans (started.locking.withStep .propose)
  -- L36/L37: lock and make valid
  case h_10 _ _ proposal _ =>
    split
    · exact locking.precommit info.address proposal
    · exact .refl locking
  -- L36/L42: a new valid value
  case h_12 _ _ proposal _ =>
    split
    · exact locking.setValid proposal.value
    · exact .refl locking
  -- L65: the round after the input's round, which is ours
  case h_15 =>
    split
    · next same =>
        have same : state.round = info.inputRound := of_decide_eq_true same
        exact locking.roundSkip (by rw [same]; exact le_of_lt info.inputRound.lt_increment)
    · exact .refl locking
  -- L55: a later round
  case h_16 _ _ round _ =>
    split
    · next later => exact locking.roundSkip (le_of_lt later)
    · exact .refl locking
  -- L49
  case h_17 _ _ proposal _ => exact locking.commit state.round proposal
  -- every other arm changes the step only (its next state is `state.withStep _`), or is
  -- invalid
  all_goals first
    | exact .refl locking
    | split <;> first | exact .refl locking | exact locking.withStep _
    | split
      · exact locking.withStep _
      · split <;> first | exact .refl locking | exact locking.withStep _

theorem Locking.moves (locking : Locking state) {next : State C} (moves : Moves state next) :
    KeepsLocks state next := by
  cases moves with
  | apply info input forward => exact locking.apply info input forward

/-- Along any moves from a `Locking` state the locks are kept. -/
theorem Locking.reaches (locking : Locking state) {next : State C}
    (reachable : Relation.ReflTransGen Moves state next) : KeepsLocks state next := by
  induction reachable with
  | refl => exact .refl locking
  | tail _ moves kept => exact kept.trans (kept.locking.moves moves)

end Locking

section Decided

/-- What a transition does to the decision of a state that has not decided: it decides, with
the decision output, and moves to the commit step; or it outputs no decision and stays
undecided outside the commit step. -/
inductive Transition.Decides (transition : Transition C) : Prop
  | undecided (noDecision : ∀ round proposal, transition.output ≠ some (.decision round proposal))
      (decision : transition.nextState.decision = none) (step : transition.nextState.step ≠ .commit)
  | decides (round : Round) (proposal : Proposal C)
      (output : transition.output = some (.decision round proposal))
      (decision : transition.nextState.decision = some ⟨proposal.value, proposal.round⟩)
      (step : transition.nextState.step = .commit)

variable {state : State C}

theorem Transition.decides_toState (undecided : state.decision = none)
    (open_ : state.step ≠ .commit) : (Transition.toState state).Decides :=
  .undecided (by simp) undecided open_

theorem Transition.decides_invalid (undecided : state.decision = none)
    (open_ : state.step ≠ .commit) : (Transition.invalid state).Decides :=
  .undecided (by simp) undecided open_

/-- A transition to a new step outside commit, with an output that is not a decision. -/
theorem Transition.decides_withStep (undecided : state.decision = none) {step : Step}
    (open_ : step ≠ .commit) {output : Output C}
    (notDecision : ∀ round proposal, output ≠ .decision round proposal) :
    ((Transition.toState (state.withStep step)).withOutput output).Decides :=
  .undecided (by simpa using notDecision) undecided open_

/-! Each helper of `apply` at an undecided state outside the commit step. -/

section Helpers

variable (undecided : state.decision = none) (open_ : state.step ≠ .commit)
include undecided

theorem proposeValidOrGetValue_decides (address : C.Address) :
    (proposeValidOrGetValue state address).Decides := by
  unfold StateMachine.proposeValidOrGetValue
  split <;> exact Transition.decides_withStep undecided (by decide) (by simp)

theorem scheduleTimeoutPropose_decides : (scheduleTimeoutPropose state).Decides :=
  Transition.decides_withStep undecided (by decide) (by simp)

theorem propose_decides (value : C.Value) (address : C.Address) :
    (propose state value address).Decides :=
  Transition.decides_withStep undecided (by decide) (by simp)

theorem prevote_decides (address : C.Address) (proposal : Proposal C) :
    (prevote state address proposal).Decides :=
  Transition.decides_withStep undecided (by decide) (by simp)

theorem prevotePrevious_decides (address : C.Address) (proposal : Proposal C) :
    (prevotePrevious state address proposal).Decides :=
  Transition.decides_withStep undecided (by decide) (by simp)

theorem prevoteNil_decides (address : C.Address) : (prevoteNil state address).Decides :=
  Transition.decides_withStep undecided (by decide) (by simp)

theorem precommitNil_decides (address : C.Address) : (precommitNil state address).Decides :=
  Transition.decides_withStep undecided (by decide) (by simp)

theorem roundSkip_decides (round : Round) : (roundSkip state round).Decides :=
  Transition.decides_withStep (show (state.withRound round).decision = none from undecided)
    (by decide) (by simp)

/-- L49 at an undecided state: the decision, of the proposal's value and round. -/
theorem commit_decides (round : Round) (proposal : Proposal C) :
    (commit state round proposal).Decides := by
  unfold StateMachine.commit
  rw [undecided]
  exact .decides round proposal rfl rfl rfl

include open_

theorem precommit_decides (address : C.Address) (proposal : Proposal C) :
    (precommit state address proposal).Decides := by
  unfold StateMachine.precommit
  split
  · exact Transition.decides_toState undecided open_
  · have kept : ((state.setLocked proposal.value).setValid proposal.value).decision = none :=
      undecided
    exact Transition.decides_withStep kept (by decide) (by simp)

theorem scheduleTimeoutPrevote_decides : (scheduleTimeoutPrevote state).Decides :=
  .undecided (by simp [scheduleTimeoutPrevote]) undecided open_

theorem scheduleTimeoutPrecommit_decides : (scheduleTimeoutPrecommit state).Decides :=
  .undecided (by simp [scheduleTimeoutPrecommit]) undecided open_

theorem setValidValue_decides (proposal : Proposal C) : (setValidValue state proposal).Decides :=
  .undecided (by simp [setValidValue]) undecided open_

end Helpers

/-- One transition at an undecided state outside the commit step. -/
theorem apply_decides (undecided : state.decision = none) (open_ : state.step ≠ .commit)
    (info : Info C) (input : Input C) : (apply state info input).Decides := by
  unfold StateMachine.apply
  split
  all_goals dsimp only
  case h_1 _ _ round _ =>
    have started : (state.withRound round).decision = none := undecided
    split
    · exact proposeValidOrGetValue_decides started info.address
    · exact scheduleTimeoutPropose_decides started
  case h_2 _ _ value _ =>
    split
    · exact propose_decides undecided value info.address
    · exact Transition.decides_invalid undecided open_
  case h_3 _ _ proposal _ =>
    split
    · exact prevote_decides undecided info.address proposal
    · exact Transition.decides_invalid undecided open_
  case h_5 _ _ proposal _ =>
    split
    · exact prevotePrevious_decides undecided info.address proposal
    · exact Transition.decides_invalid undecided open_
  case h_7 =>
    split
    · exact prevoteNil_decides undecided info.address
    · split
      · exact prevoteNil_decides undecided info.address
      · exact Transition.decides_invalid undecided open_
  case h_8 =>
    split
    · exact scheduleTimeoutPrevote_decides undecided open_
    · exact Transition.decides_invalid undecided open_
  case h_10 _ _ proposal _ =>
    split
    · exact precommit_decides undecided open_ info.address proposal
    · exact Transition.decides_invalid undecided open_
  case h_12 _ _ proposal _ =>
    split
    · exact setValidValue_decides undecided open_ proposal
    · exact Transition.decides_invalid undecided open_
  -- the commit step is excluded
  case h_13 _ _ committed => exact absurd committed open_
  case h_14 =>
    split
    · exact scheduleTimeoutPrecommit_decides undecided open_
    · exact Transition.decides_invalid undecided open_
  case h_15 =>
    split
    · exact roundSkip_decides undecided _
    · exact Transition.decides_invalid undecided open_
  case h_16 _ _ round _ =>
    split
    · exact roundSkip_decides undecided round
    · exact Transition.decides_invalid undecided open_
  case h_17 _ _ proposal _ => exact commit_decides undecided state.round proposal
  case h_18 => exact Transition.decides_invalid undecided open_
  -- an invalid proposal, an invalid proposal after a polka, a polka for nil, a prevote timeout
  all_goals
    split
    · first
        | exact prevoteNil_decides undecided info.address
        | exact precommitNil_decides undecided info.address
    · exact Transition.decides_invalid undecided open_

/-- The machine has decided exactly when it is at the commit step. -/
def Decided (state : State C) : Prop := state.decision.isSome = true ↔ state.step = .commit

theorem decided_new (height : C.Height) (round : Round) : Decided (State.new height round : State C) := by
  simp [Decided, State.new]

/-- At the commit step the machine neither changes nor outputs anything. -/
theorem run_of_commit (committed : state.step = .commit) (steps : List (Info C × Input C)) :
    run state steps = (state, []) := by
  induction steps with
  | nil => rfl
  | cons step rest ih =>
      obtain ⟨info, input⟩ := step
      simp only [run, apply_of_commit state info input committed, Transition.invalid_nextState,
        Transition.invalid_output, Option.toList_none, List.nil_append, ih]

/-- An element that is not in the front part of a list is in the rest. -/
theorem exists_append_cons_of_not_mem {α : Type} {xs ys front back : List α} {x : α}
    (absent : x ∉ xs) (split : xs ++ ys = front ++ x :: back) :
    ∃ middle, ys = middle ++ x :: back := by
  rcases List.append_eq_append_iff.mp split with ⟨middle, -, rest⟩ | ⟨middle, first, rest⟩
  · exact ⟨middle, rest⟩
  · cases middle with
    | nil => exact ⟨[], by simpa using rest.symm⟩
    | cons head tail =>
        simp only [List.cons_append, List.cons.injEq] at rest
        rw [first, rest.1] at absent
        simp at absent

/-- From a state where it has decided exactly at the commit step: a run outputs at most one
decision and nothing after it, and ends decided on the proposal of that output, or with the
decision it started with. -/
theorem Decided.run (decided : Decided state) (steps : List (Info C × Input C)) :
    ((∀ round proposal, Output.decision round proposal ∉ (run state steps).2) →
        (run state steps).1.decision = state.decision) ∧
      ∀ front round proposal back,
        (run state steps).2 = front ++ Output.decision round proposal :: back →
          back = [] ∧ state.decision = none ∧
            (run state steps).1.decision = some ⟨proposal.value, proposal.round⟩ := by
  induction steps generalizing state with
  | nil => simp [run]
  | cons step rest ih =>
      obtain ⟨info, input⟩ := step
      by_cases committed : state.step = .commit
      · rw [run_of_commit committed]
        simp
      · have undecided : state.decision = none := by
          simpa [Decided, committed] using decided
        cases apply_decides undecided committed info input with
        | undecided noDecision decision step =>
            -- the outputs of the run are those of the rest
            have later : Decided (apply state info input).nextState := by
              simp [Decided, decision, step]
            obtain ⟨kept, once⟩ := ih later
            refine ⟨fun absent => ?_, fun front round proposal back outputs => ?_⟩
            · rw [run, kept fun round proposal member => absent round proposal
                (List.mem_append_right _ member), decision, undecided]
            · have notFirst : Output.decision round proposal ∉ (apply state info input).output.toList :=
                by simpa using noDecision round proposal
              obtain ⟨middle, restOutputs⟩ := exists_append_cons_of_not_mem notFirst outputs
              obtain ⟨last, -, final⟩ := once middle round proposal back restOutputs
              exact ⟨last, undecided, final⟩
        | decides round proposal output decision step =>
            -- the decision is the only output: the rest of the run is at the commit step
            have halted := run_of_commit step rest
            have outputs : (StateMachine.run state ((info, input) :: rest)).2 =
                [Output.decision round proposal] := by
              simp [run, output, halted]
            have final : (StateMachine.run state ((info, input) :: rest)).1 =
                (apply state info input).nextState := by
              simp [run, halted]
            refine ⟨fun absent => absurd (by simp [outputs]) (absent round proposal),
              fun front other otherProposal back split => ?_⟩
            rw [outputs] at split
            have lengths := congrArg List.length split
            simp only [List.length_append, List.length_cons, List.length_nil] at lengths
            have noFront : front = [] := List.eq_nil_of_length_eq_zero (by omega)
            subst noFront
            simp only [List.nil_append, List.cons.injEq, Output.decision.injEq] at split
            obtain ⟨⟨-, rfl⟩, rfl⟩ := split
            exact ⟨rfl, undecided, by rw [final, decision]⟩

/-- From a new state, a run of the round state machine outputs at most one decision and
nothing after it, and ends decided on the proposal of that decision; without a decision
output it ends undecided. -/
theorem decides_once (height : C.Height) (round : Round) (steps : List (Info C × Input C)) :
    ((∀ decided proposal, Output.decision decided proposal ∉ (run (State.new height round) steps).2) →
        (run (State.new height round) steps).1.decision = none) ∧
      ∀ front decided proposal back,
        (run (State.new height round) steps).2 = front ++ Output.decision decided proposal :: back →
          back = [] ∧
            (run (State.new height round) steps).1.decision = some ⟨proposal.value, proposal.round⟩ := by
  obtain ⟨kept, once⟩ := (decided_new height round : Decided (State.new height round : State C)).run steps
  refine ⟨fun absent => kept absent, fun front decided proposal back outputs => ?_⟩
  obtain ⟨last, -, final⟩ := once front decided proposal back outputs
  exact ⟨last, final⟩

end Decided

/-- Every state the machine reaches from a new state, without a `NewRound` to an earlier
round, has its valid value at a round no later than its own and at least as recent as its
locked value; and from there on neither the locked nor the valid value is dropped or moved
to an earlier round. -/
theorem valid_round_covers_locked_round {height : C.Height} {round : Round} {state next : State C}
    (reachable : Relation.ReflTransGen Moves (State.new height round) state)
    (later : Relation.ReflTransGen Moves state next) :
    (∀ valid ∈ state.valid, valid.round ≤ state.round) ∧
      (∀ locked ∈ state.locked, ∃ valid ∈ state.valid, locked.round ≤ valid.round) ∧
      (∀ locked ∈ state.locked, ∃ kept ∈ next.locked, locked.round ≤ kept.round) ∧
      ∀ valid ∈ state.valid, ∃ kept ∈ next.valid, valid.round ≤ kept.round := by
  have locking : Locking state := ((locking_new height round).reaches reachable).locking
  have kept := locking.reaches later
  exact ⟨locking.validBelow, locking.lockedBelowValid, kept.locked, kept.valid⟩

/-- The proposer of round 0 proposes 5, prevotes it and sees a polka for it: it is locked
on 5 at round 0, with 5 valid at round 0. -/
theorem valid_round_covers_lock_on_polka :
    let info : Info testContext := ⟨.some 0, 0, 0⟩
    let proposal : Proposal testContext := ⟨0, .some 0, 5, .nil, 0⟩
    let started := (apply (State.new 0 .nil : State testContext) info (.newRound (.some 0))).nextState
    let proposed := (apply started info (.proposeValue 5)).nextState
    let prevoted := (apply proposed info (.proposal proposal)).nextState
    let locked := (apply prevoted info (.proposalAndPolkaCurrent proposal)).nextState
    Relation.ReflTransGen Moves (State.new 0 .nil : State testContext) locked ∧
      locked.locked = some ⟨5, .some 0⟩ ∧ locked.valid = some ⟨5, .some 0⟩ ∧
      (∀ valid ∈ locked.valid, valid.round ≤ locked.round) ∧
      (∀ lock ∈ locked.locked, ∃ valid ∈ locked.valid, lock.round ≤ valid.round) ∧
      (∀ lock ∈ locked.locked, ∃ kept ∈ locked.locked, lock.round ≤ kept.round) ∧
      ∀ valid ∈ locked.valid, ∃ kept ∈ locked.valid, valid.round ≤ kept.round := by
  intro info proposal started proposed prevoted locked
  have reachable : Relation.ReflTransGen Moves (State.new 0 .nil : State testContext) locked :=
    .tail (.tail (.tail (.single (.apply _ info _ fun _ same => by cases same; decide))
      (.apply _ info _ fun _ same => by cases same))
      (.apply _ info _ fun _ same => by cases same))
      (.apply _ info _ fun _ same => by cases same)
  exact ⟨reachable, by decide, by decide,
    valid_round_covers_locked_round reachable Relation.ReflTransGen.refl⟩

end Malachite.StateMachine
