import Malachite.Types.Context

namespace Malachite

/-! The timeouts of the consensus engine: `TimeoutConfig` of the config crate, and the engine's
`Timeouts` (`engine/src/consensus.rs`), from which the consensus actor takes the duration of
every timer it schedules.

A `Duration` is a number of nanoseconds.  The source's `+` and `+=` on `Duration` panic only
past `u64::MAX` seconds, which no run of the engine reaches, so `Nat` addition models them.

The actor puts the configured timeouts back when a height starts (`Effect::ResetTimeouts`),
and lengthens a step's timeout by its delta each time a timer of that step elapses, so that a
later round waits longer.  The rebroadcast timeout lasts as long as the three step timeouts
together and grows with them; `increase_timeout` also adds to `timeout_rebroadcast`, a field
that `duration_for` never reads, so an elapsed rebroadcast timeout lengthens nothing. -/

/-- `TimeoutConfig`: the duration of each step's timeout in the first round, and how much it
grows with each round. -/
structure TimeoutConfig where
  timeoutPropose : Nat
  timeoutProposeDelta : Nat
  timeoutPrevote : Nat
  timeoutPrevoteDelta : Nat
  timeoutPrecommit : Nat
  timeoutPrecommitDelta : Nat
  timeoutRebroadcast : Nat
deriving DecidableEq, Repr

namespace TimeoutConfig

/-- `timeout_duration`. -/
def timeoutDuration (config : TimeoutConfig) : TimeoutKind → Nat
  | .propose => config.timeoutPropose
  | .prevote => config.timeoutPrevote
  | .precommit => config.timeoutPrecommit
  | .rebroadcast => config.timeoutPropose + config.timeoutPrevote + config.timeoutPrecommit

/-- `delta_duration`: the rebroadcast timeout has no delta of its own. -/
def deltaDuration (config : TimeoutConfig) : TimeoutKind → Option Nat
  | .propose => some config.timeoutProposeDelta
  | .prevote => some config.timeoutPrevoteDelta
  | .precommit => some config.timeoutPrecommitDelta
  | .rebroadcast => none

/-- `TimeoutConfig::default`: three seconds to propose, one to prevote and one to precommit,
each growing by half a second with every round. -/
def default : TimeoutConfig :=
  let timeoutPropose := 3000000000
  let timeoutPrevote := 1000000000
  let timeoutPrecommit := 1000000000
  let timeoutRebroadcast := timeoutPropose + timeoutPrevote + timeoutPrecommit
  { timeoutPropose, timeoutProposeDelta := 500000000, timeoutPrevote,
    timeoutPrevoteDelta := 500000000, timeoutPrecommit, timeoutPrecommitDelta := 500000000,
    timeoutRebroadcast }

/-- How much one elapsed timeout of step `elapsed` lengthens the timeout of step `kind`: its
delta, when it is `kind` itself or `kind` is the rebroadcast timeout, which lasts as long as
the three others together. -/
def growth (config : TimeoutConfig) (elapsed kind : TimeoutKind) : Nat :=
  if elapsed = kind ∨ kind = .rebroadcast then (config.deltaDuration elapsed).getD 0 else 0

/-- A step's timeout grows by its delta for each timeout of its own and for no other. -/
theorem sum_growth_of_deltaDuration (config : TimeoutConfig) {kind : TimeoutKind} {delta : Nat}
    (hasDelta : config.deltaDuration kind = some delta) (elapsed : List TimeoutKind) :
    (elapsed.map fun other => config.growth other kind).sum = elapsed.count kind * delta := by
  have notRebroadcast : kind ≠ .rebroadcast := by
    rintro rfl
    simp [deltaDuration] at hasDelta
  induction elapsed with
  | nil => simp
  | cons other elapsed ih =>
    rw [List.map_cons, List.sum_cons, ih, List.count_cons]
    by_cases same : other = kind
    · subst same
      simp [growth, hasDelta, Nat.succ_mul, Nat.add_comm]
    · simp [growth, same, notRebroadcast]

end TimeoutConfig

namespace Engine

/-- `Timeouts`: the configured timeouts, grown by the timeouts that elapsed since the height
started. -/
structure Timeouts where
  config : TimeoutConfig
deriving DecidableEq, Repr

namespace Timeouts

def new (config : TimeoutConfig) : Timeouts := ⟨config⟩

/-- `reset`: the configured timeouts, whatever they had grown to. -/
def reset (_timeouts : Timeouts) (config : TimeoutConfig) : Timeouts := ⟨config⟩

/-- `duration_for`. -/
def durationFor (timeouts : Timeouts) : TimeoutKind → Nat
  | .propose => timeouts.config.timeoutPropose
  | .prevote => timeouts.config.timeoutPrevote
  | .precommit => timeouts.config.timeoutPrecommit
  | .rebroadcast =>
      timeouts.config.timeoutPropose + timeouts.config.timeoutPrevote +
        timeouts.config.timeoutPrecommit

/-- `increase_timeout`. -/
def increaseTimeout (timeouts : Timeouts) (step : TimeoutKind) : Timeouts :=
  let c := timeouts.config
  match step with
  | .propose => ⟨{ c with timeoutPropose := c.timeoutPropose + c.timeoutProposeDelta }⟩
  | .prevote => ⟨{ c with timeoutPrevote := c.timeoutPrevote + c.timeoutPrevoteDelta }⟩
  | .precommit => ⟨{ c with timeoutPrecommit := c.timeoutPrecommit + c.timeoutPrecommitDelta }⟩
  | .rebroadcast =>
      ⟨{ c with timeoutRebroadcast := c.timeoutRebroadcast +
          (c.timeoutProposeDelta + c.timeoutPrevoteDelta + c.timeoutPrecommitDelta) }⟩

@[simp] theorem durationFor_new (config : TimeoutConfig) :
    (new config).durationFor = config.timeoutDuration := by
  funext kind
  cases kind <;> rfl

@[simp] theorem reset_eq_new (timeouts : Timeouts) (config : TimeoutConfig) :
    timeouts.reset config = new config := rfl

@[simp] theorem deltaDuration_increaseTimeout (timeouts : Timeouts) (step : TimeoutKind) :
    (timeouts.increaseTimeout step).config.deltaDuration = timeouts.config.deltaDuration := by
  funext kind
  cases step <;> cases kind <;> rfl

/-- The step lemma: an elapsed timeout lengthens each timeout by its growth. -/
theorem durationFor_increaseTimeout (timeouts : Timeouts) (step kind : TimeoutKind) :
    (timeouts.increaseTimeout step).durationFor kind =
      timeouts.durationFor kind + timeouts.config.growth step kind := by
  cases step <;> cases kind <;>
    simp [increaseTimeout, durationFor, TimeoutConfig.growth, TimeoutConfig.deltaDuration] <;>
    omega

/-- What the consensus actor does to its timeouts: `Effect::ResetTimeouts` when a height
starts, and `increase_timeout` in `timeout_elapsed` for each timer that elapses. -/
inductive Event where
  | resetTimeouts
  | timeoutElapsed (kind : TimeoutKind)
deriving DecidableEq, Repr

/-- One event; a reset puts back the configuration the actor was started with. -/
def Event.apply (config : TimeoutConfig) (timeouts : Timeouts) : Event → Timeouts
  | .resetTimeouts => timeouts.reset config
  | .timeoutElapsed kind => timeouts.increaseTimeout kind

def run (config : TimeoutConfig) (timeouts : Timeouts) (events : List Event) : Timeouts :=
  events.foldl (Event.apply config) timeouts

/-- The timeouts that elapsed since the last reset of a run, after `elapsed` before it. -/
def elapsedAfter (elapsed : List TimeoutKind) : List Event → List TimeoutKind
  | [] => elapsed
  | .resetTimeouts :: events => elapsedAfter [] events
  | .timeoutElapsed kind :: events => elapsedAfter (elapsed ++ [kind]) events

/-- The invariant of a run: the deltas are the configured ones, and each timeout lasts its
configured duration grown by each timeout of `elapsed`. -/
structure Grown (config : TimeoutConfig) (elapsed : List TimeoutKind) (timeouts : Timeouts) :
    Prop where
  deltaDuration : timeouts.config.deltaDuration = config.deltaDuration
  durationFor : ∀ kind, timeouts.durationFor kind =
    config.timeoutDuration kind + (elapsed.map fun other => config.growth other kind).sum

theorem grown_new (config : TimeoutConfig) : Grown config [] (new config) :=
  ⟨rfl, fun kind => by simp⟩

theorem Grown.increaseTimeout {config : TimeoutConfig} {elapsed : List TimeoutKind}
    {timeouts : Timeouts} (grown : Grown config elapsed timeouts) (step : TimeoutKind) :
    Grown config (elapsed ++ [step]) (timeouts.increaseTimeout step) := by
  -- the growth reads only the deltas, which no elapsed timeout changes
  have sameGrowth : timeouts.config.growth = config.growth := by
    funext elapsed kind
    simp only [TimeoutConfig.growth, grown.deltaDuration]
  refine ⟨by rw [deltaDuration_increaseTimeout, grown.deltaDuration], fun kind => ?_⟩
  rw [durationFor_increaseTimeout, grown.durationFor, sameGrowth]
  simp [Nat.add_assoc]

/-- The run lemma: a reset starts the growth afresh and each elapsed timeout adds its own. -/
theorem Grown.run {config : TimeoutConfig} {elapsed : List TimeoutKind} {timeouts : Timeouts}
    (grown : Grown config elapsed timeouts) (events : List Event) :
    Grown config (elapsedAfter elapsed events) (run config timeouts events) := by
  induction events generalizing elapsed timeouts with
  | nil => exact grown
  | cons event events ih =>
    cases event with
    | resetTimeouts => exact ih (by simpa [Event.apply] using grown_new config)
    | timeoutElapsed kind => exact ih (grown.increaseTimeout kind)

theorem durationFor_run (config : TimeoutConfig) (events : List Event) (kind : TimeoutKind) :
    (run config (new config) events).durationFor kind =
      config.timeoutDuration kind +
        ((elapsedAfter [] events).map fun elapsed => config.growth elapsed kind).sum :=
  ((grown_new config).run events).durationFor kind

/-- So a step timeout lasts its configured duration and its delta once for each of its own
timeouts since the last reset. -/
theorem durationFor_run_of_deltaDuration (config : TimeoutConfig) (events : List Event)
    {kind : TimeoutKind} {delta : Nat} (hasDelta : config.deltaDuration kind = some delta) :
    (run config (new config) events).durationFor kind =
      config.timeoutDuration kind + (elapsedAfter [] events).count kind * delta := by
  rw [((grown_new config).run events).durationFor kind, config.sum_growth_of_deltaDuration hasDelta]

example :
    (run .default (new .default) [.timeoutElapsed .propose, .timeoutElapsed .rebroadcast,
      .resetTimeouts, .timeoutElapsed .propose, .timeoutElapsed .prevote]).durationFor
        .rebroadcast = 6000000000 := by
  decide

end Timeouts

end Engine

end Malachite
