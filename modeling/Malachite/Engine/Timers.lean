import Malachite.Lib.KeyMap

namespace Malachite.Engine

/-! The timers of the engine's actors (`engine/src/util/timers.rs`).

A `TimerScheduler` keeps, for each key, the generation of the timer active under it, and
counts generations from 1.  Starting a timer cancels the one under its key and spawns a task
that sends `TimeoutElapsed { key, generation }`; cancelling aborts the task, but a message it
already sent stays in the actor's mailbox.  `intercept_timer_msg` lets a message through only
when it carries the generation of the timer active under its key, and that timer is then no
longer active.

The tasks and the output port are left out: what the scheduler decides reads only the map
and the counter.  The `u64` counter is a `Nat`; the source panics only after `u64::MAX`
timers have been started.

A generation is `Spent` once it was handed out and no key holds it.  Every step keeps a spent
generation spent, since a new timer always takes the next generation; letting a message
through, cancelling, and starting a timer under the same key all spend the generation of the
timer they end.  So a message that a timer's task sent is let through at most once, and
never after its timer was cancelled or replaced. -/

/-- `TimeoutElapsed`: what a timer's task sends when its timeout elapses. -/
structure TimeoutElapsed (Key : Type) where
  key : Key
  generation : Nat
deriving DecidableEq, Repr

variable {Key : Type} [DecidableEq Key]

/-- `TimerScheduler`: the generation of the timer active under each key, keys distinct as in
the source's `HashMap`, and the next generation. -/
structure TimerScheduler (Key : Type) where
  timers : List (Key × Nat)
  distinct : (timers.map Prod.fst).Nodup
  generations : Nat

namespace TimerScheduler

def new : TimerScheduler Key := ⟨[], List.nodup_nil, 1⟩

/-- `is_timer_active`. -/
def isTimerActive (scheduler : TimerScheduler Key) (key : Key) : Bool :=
  (KeyMap.get? scheduler.timers key).isSome

/-- `cancel`: drop the timer under the key, if any. -/
def cancel (scheduler : TimerScheduler Key) (key : Key) : TimerScheduler Key :=
  ⟨KeyMap.retain scheduler.timers fun other => other != key,
    KeyMap.nodup_keys_retain scheduler.distinct _, scheduler.generations⟩

/-- `start_timer`: cancel the timer under the key and start one of the next generation.  The
second component is the message the spawned task sends when the timeout elapses. -/
def startTimer (scheduler : TimerScheduler Key) (key : Key) :
    TimerScheduler Key × TimeoutElapsed Key :=
  let scheduler := scheduler.cancel key
  let generation := scheduler.generations
  (⟨KeyMap.insert scheduler.timers key generation,
      KeyMap.nodup_keys_insert scheduler.distinct key generation, generation + 1⟩,
    ⟨key, generation⟩)

/-- `cancel_all`. -/
def cancelAll (scheduler : TimerScheduler Key) : TimerScheduler Key :=
  ⟨[], List.nodup_nil, scheduler.generations⟩

/-- `intercept_timer_msg`: discard a message of a cancelled timer (`Vacant`) or of an older
timer under the key (`Occupied` with another generation); otherwise remove the timer and
return its key. -/
def interceptTimerMsg (scheduler : TimerScheduler Key) (timerMsg : TimeoutElapsed Key) :
    TimerScheduler Key × Option Key :=
  match KeyMap.get? scheduler.timers timerMsg.key with
  | none => (scheduler, none)
  | some generation =>
      if timerMsg.generation ≠ generation then (scheduler, none)
      else
        (⟨KeyMap.retain scheduler.timers fun other => other != timerMsg.key,
            KeyMap.nodup_keys_retain scheduler.distinct _, scheduler.generations⟩,
          some timerMsg.key)

/-! ### What each call does to the map -/

@[simp] theorem generations_cancel (scheduler : TimerScheduler Key) (key : Key) :
    (scheduler.cancel key).generations = scheduler.generations :=
  rfl

@[simp] theorem generations_startTimer (scheduler : TimerScheduler Key) (key : Key) :
    (scheduler.startTimer key).1.generations = scheduler.generations + 1 :=
  rfl

omit [DecidableEq Key] in
@[simp] theorem generations_cancelAll (scheduler : TimerScheduler Key) :
    scheduler.cancelAll.generations = scheduler.generations :=
  rfl

@[simp] theorem get?_cancelAll (scheduler : TimerScheduler Key) (wanted : Key) :
    KeyMap.get? scheduler.cancelAll.timers wanted = none :=
  rfl

theorem get?_cancel (scheduler : TimerScheduler Key) (key wanted : Key) :
    KeyMap.get? (scheduler.cancel key).timers wanted =
      if wanted = key then none else KeyMap.get? scheduler.timers wanted := by
  simp only [cancel, KeyMap.get?_retain, bne_iff_ne, ne_eq]
  split <;> simp_all

theorem get?_startTimer (scheduler : TimerScheduler Key) (key wanted : Key) :
    KeyMap.get? (scheduler.startTimer key).1.timers wanted =
      if wanted = key then some scheduler.generations else KeyMap.get? scheduler.timers wanted := by
  simp only [startTimer, KeyMap.get?_insert, get?_cancel, generations_cancel]
  by_cases same : wanted = key
  · simp [same]
  · simp [same, Ne.symm same]

/-- The message a started timer's task sends carries the generation the timer was given. -/
theorem startTimer_message (scheduler : TimerScheduler Key) (key : Key) :
    (scheduler.startTimer key).2 = ⟨key, scheduler.generations⟩ :=
  rfl

/-- A message gets through exactly when it carries the generation of the timer active under
its key, and its timer is then cancelled. -/
theorem interceptTimerMsg_eq (scheduler : TimerScheduler Key) (timerMsg : TimeoutElapsed Key) :
    scheduler.interceptTimerMsg timerMsg =
      if KeyMap.get? scheduler.timers timerMsg.key = some timerMsg.generation then
        (scheduler.cancel timerMsg.key, some timerMsg.key)
      else (scheduler, none) := by
  unfold interceptTimerMsg
  cases found : KeyMap.get? scheduler.timers timerMsg.key with
  | none => simp
  | some generation =>
      by_cases same : timerMsg.generation = generation
      · simp [same, cancel]
      · simp [same, Ne.symm same]

/-! ### Runs of calls -/

/-- A call the actor makes on its scheduler; `interceptTimerMsg` is made for each
`TimeoutElapsed` taken from the mailbox, in whatever order and however often they come. -/
inductive Call (Key : Type) where
  | startTimer (key : Key)
  | cancel (key : Key)
  | cancelAll
  | interceptTimerMsg (timerMsg : TimeoutElapsed Key)

def Call.apply (scheduler : TimerScheduler Key) : Call Key → TimerScheduler Key × Option Key
  | .startTimer key => ((scheduler.startTimer key).1, none)
  | .cancel key => (scheduler.cancel key, none)
  | .cancelAll => (scheduler.cancelAll, none)
  | .interceptTimerMsg timerMsg => scheduler.interceptTimerMsg timerMsg

/-- The messages `intercept_timer_msg` lets through in a call: the message itself when it
returned a key. -/
def Call.passed : Call Key → Option Key → List (TimeoutElapsed Key)
  | .interceptTimerMsg timerMsg, some _ => [timerMsg]
  | _, _ => []

/-- A run of calls: the scheduler at the end, and the messages let through, in order. -/
def run (scheduler : TimerScheduler Key) : List (Call Key) → TimerScheduler Key × List (TimeoutElapsed Key)
  | [] => (scheduler, [])
  | call :: rest =>
      let applied := Call.apply scheduler call
      let after := applied.1.run rest
      (after.1, call.passed applied.2 ++ after.2)

/-! ### Generations are handed out once -/

/-- The invariant: every active generation was handed out, and no two keys hold the same one. -/
structure Fresh (scheduler : TimerScheduler Key) : Prop where
  issued : ∀ key generation, KeyMap.get? scheduler.timers key = some generation →
    generation < scheduler.generations
  unique : ∀ key other generation, KeyMap.get? scheduler.timers key = some generation →
    KeyMap.get? scheduler.timers other = some generation → key = other

/-- A generation handed out that no key holds any more. -/
def Spent (scheduler : TimerScheduler Key) (generation : Nat) : Prop :=
  generation < scheduler.generations ∧ ∀ key, KeyMap.get? scheduler.timers key ≠ some generation

theorem fresh_new : Fresh (new : TimerScheduler Key) :=
  ⟨fun _ _ found => by simp [new] at found, fun _ _ _ found => by simp [new] at found⟩

section Step

variable {scheduler : TimerScheduler Key}

theorem Fresh.cancel (fresh : Fresh scheduler) (key : Key) : Fresh (scheduler.cancel key) := by
  constructor
  · intro wanted generation found
    rw [get?_cancel] at found
    split at found
    · cases found
    · exact fresh.issued wanted generation found
  · intro wanted other generation found otherFound
    rw [get?_cancel] at found otherFound
    split at found
    · cases found
    · split at otherFound
      · cases otherFound
      · exact fresh.unique wanted other generation found otherFound

theorem Fresh.startTimer (fresh : Fresh scheduler) (key : Key) :
    Fresh (scheduler.startTimer key).1 := by
  -- the new timer takes the next generation, which no other key holds
  have below : ∀ wanted generation, KeyMap.get? scheduler.timers wanted = some generation →
      generation ≠ scheduler.generations := fun wanted generation found =>
    Nat.ne_of_lt (fresh.issued wanted generation found)
  constructor
  · intro wanted generation found
    rw [get?_startTimer] at found
    rw [generations_startTimer]
    split at found
    · cases found
      omega
    · have := fresh.issued wanted generation found
      omega
  · intro wanted other generation found otherFound
    rw [get?_startTimer] at found otherFound
    split at found
    · next sameKey =>
      cases found
      split at otherFound
      · next otherSame => rw [sameKey, otherSame]
      · exact absurd rfl (below other _ otherFound)
    · split at otherFound
      · cases otherFound
        exact absurd rfl (below wanted _ found)
      · exact fresh.unique wanted other generation found otherFound

theorem fresh_cancelAll (scheduler : TimerScheduler Key) : Fresh scheduler.cancelAll :=
  ⟨fun _ _ found => by simp at found, fun _ _ _ found => by simp at found⟩

theorem Fresh.interceptTimerMsg (fresh : Fresh scheduler) (timerMsg : TimeoutElapsed Key) :
    Fresh (scheduler.interceptTimerMsg timerMsg).1 := by
  rw [interceptTimerMsg_eq]
  split
  · exact fresh.cancel timerMsg.key
  · exact fresh

theorem Fresh.apply (fresh : Fresh scheduler) (call : Call Key) :
    Fresh (Call.apply scheduler call).1 := by
  cases call with
  | startTimer key => exact fresh.startTimer key
  | cancel key => exact fresh.cancel key
  | cancelAll => exact fresh_cancelAll scheduler
  | interceptTimerMsg timerMsg => exact fresh.interceptTimerMsg timerMsg

theorem Spent.cancel {generation : Nat} (spent : Spent scheduler generation) (key : Key) :
    Spent (scheduler.cancel key) generation := by
  refine ⟨spent.1, fun wanted => ?_⟩
  rw [get?_cancel]
  split
  · simp
  · exact spent.2 wanted

theorem Spent.apply {generation : Nat} (spent : Spent scheduler generation) (call : Call Key) :
    Spent (Call.apply scheduler call).1 generation := by
  cases call with
  | startTimer key =>
      -- the new timer's generation is above every spent one
      refine ⟨by simp only [Call.apply, generations_startTimer]; exact Nat.lt_succ_of_lt spent.1,
        fun wanted => ?_⟩
      simp only [Call.apply, get?_startTimer]
      split
      · intro same
        cases same
        exact absurd spent.1 (lt_irrefl _)
      · exact spent.2 wanted
  | cancel key => exact spent.cancel key
  | cancelAll => exact ⟨spent.1, fun wanted => by simp [Call.apply]⟩
  | interceptTimerMsg timerMsg =>
      simp only [Call.apply, interceptTimerMsg_eq]
      split
      · exact spent.cancel timerMsg.key
      · exact spent

/-- No message of a spent generation gets through. -/
theorem Spent.passed {generation : Nat} (spent : Spent scheduler generation) (call : Call Key) :
    ∀ timerMsg ∈ call.passed (Call.apply scheduler call).2, timerMsg.generation ≠ generation := by
  cases call with
  | interceptTimerMsg timerMsg =>
      intro passedMsg member same
      simp only [Call.apply, interceptTimerMsg_eq] at member
      split at member
      · next active =>
        simp only [Call.passed, List.mem_singleton] at member
        subst member
        exact spent.2 passedMsg.key (same ▸ active)
      · simp [Call.passed] at member
  | startTimer key => simp [Call.passed]
  | cancel key => simp [Call.passed]
  | cancelAll => simp [Call.passed]

/-- Cancelling an active timer spends its generation. -/
theorem Fresh.spent_of_cancel (fresh : Fresh scheduler) {key : Key} {generation : Nat}
    (active : KeyMap.get? scheduler.timers key = some generation) :
    Spent (scheduler.cancel key) generation := by
  refine ⟨fresh.issued key generation active, fun wanted => ?_⟩
  rw [get?_cancel]
  split
  · simp
  · next other =>
    intro found
    exact other (fresh.unique wanted key generation found active)

/-- A message that gets through spends its generation. -/
theorem Fresh.spent_of_passed (fresh : Fresh scheduler) {call : Call Key}
    {timerMsg : TimeoutElapsed Key} (member : timerMsg ∈ call.passed (Call.apply scheduler call).2) :
    Spent (Call.apply scheduler call).1 timerMsg.generation := by
  cases call with
  | interceptTimerMsg delivered =>
      simp only [Call.apply, interceptTimerMsg_eq] at member ⊢
      split at member
      · next active =>
        simp only [Call.passed, List.mem_singleton] at member
        subst member
        rw [if_pos active]
        exact fresh.spent_of_cancel active
      · simp [Call.passed] at member
  | startTimer key => simp [Call.passed] at member
  | cancel key => simp [Call.passed] at member
  | cancelAll => simp [Call.passed] at member

/-- The calls that end the timer active under a key without letting a message through:
cancelling it, cancelling all timers, and starting a new timer under the key. -/
def Call.ends (key : Key) : Call Key → Bool
  | .startTimer other => decide (other = key)
  | .cancel other => decide (other = key)
  | .cancelAll => true
  | .interceptTimerMsg _ => false

/-- A call that ends the timer active under a key spends its generation. -/
theorem Fresh.spent_of_ends (fresh : Fresh scheduler) {key : Key} {generation : Nat}
    (active : KeyMap.get? scheduler.timers key = some generation) {call : Call Key}
    (ends : call.ends key = true) : Spent (Call.apply scheduler call).1 generation := by
  cases call with
  | startTimer other =>
      simp only [Call.ends, decide_eq_true_eq] at ends
      subst ends
      -- the key now holds the next generation, and no other key held the old one
      have below := fresh.issued other generation active
      refine ⟨by simp only [Call.apply, generations_startTimer]; omega, fun wanted => ?_⟩
      simp only [Call.apply, get?_startTimer]
      split
      · intro same
        cases same
        exact absurd below (lt_irrefl _)
      · next notKey =>
        intro found
        exact notKey (fresh.unique wanted other generation found active)
  | cancel other =>
      simp only [Call.ends, decide_eq_true_eq] at ends
      subst ends
      exact fresh.spent_of_cancel active
  | cancelAll => exact ⟨fresh.issued key generation active, fun wanted => by simp [Call.apply]⟩
  | interceptTimerMsg timerMsg => simp [Call.ends] at ends

/-- A call that does not end the timer active under a key either lets that timer's message
through or leaves the timer active. -/
theorem active_apply {key : Key} {generation : Nat}
    (active : KeyMap.get? scheduler.timers key = some generation) {call : Call Key}
    (kept : call.ends key = false) :
    ⟨key, generation⟩ ∈ call.passed (Call.apply scheduler call).2 ∨
      KeyMap.get? (Call.apply scheduler call).1.timers key = some generation := by
  cases call with
  | startTimer other =>
      have differ : key ≠ other := fun same => by simp [Call.ends, same] at kept
      exact .inr (by simp [Call.apply, get?_startTimer, differ, active])
  | cancel other =>
      have differ : key ≠ other := fun same => by simp [Call.ends, same] at kept
      exact .inr (by simp [Call.apply, get?_cancel, differ, active])
  | cancelAll => simp [Call.ends] at kept
  | interceptTimerMsg timerMsg =>
      simp only [Call.apply, interceptTimerMsg_eq]
      split
      · next passes =>
        by_cases same : timerMsg.key = key
        · -- a message that passes under the key carries its active generation: it is the
          -- timer's own message
          left
          rw [same, active, Option.some.injEq] at passes
          have own : timerMsg = ⟨key, generation⟩ := by
            cases timerMsg
            simp_all
          simp [Call.passed, own]
        · right
          rw [get?_cancel, if_neg (Ne.symm same)]
          exact active
      · exact .inr active

omit [DecidableEq Key] in
/-- A call lets at most one message through. -/
theorem Call.nodup_passed (call : Call Key) (output : Option Key) :
    ((call.passed output).map TimeoutElapsed.generation).Nodup := by
  cases call <;> cases output <;> simp [Call.passed]

end Step

section Run

variable {scheduler : TimerScheduler Key}

theorem Fresh.run (fresh : Fresh scheduler) (calls : List (Call Key)) :
    Fresh (scheduler.run calls).1 := by
  induction calls generalizing scheduler with
  | nil => exact fresh
  | cons call rest ih => exact ih (fresh.apply call)

/-- No message of a spent generation gets through, however the run goes on. -/
theorem Spent.run {generation : Nat} (spent : Spent scheduler generation) (calls : List (Call Key)) :
    ∀ timerMsg ∈ (scheduler.run calls).2, timerMsg.generation ≠ generation := by
  induction calls generalizing scheduler with
  | nil => simp [TimerScheduler.run]
  | cons call rest ih =>
      intro timerMsg member
      simp only [TimerScheduler.run, List.mem_append] at member
      rcases member with now | later
      · exact spent.passed call timerMsg now
      · exact ih (spent.apply call) timerMsg later

theorem run_append (scheduler : TimerScheduler Key) (calls more : List (Call Key)) :
    scheduler.run (calls ++ more) =
      (((scheduler.run calls).1.run more).1,
        (scheduler.run calls).2 ++ ((scheduler.run calls).1.run more).2) := by
  induction calls generalizing scheduler with
  | nil => simp [TimerScheduler.run]
  | cons call rest ih => simp [TimerScheduler.run, ih]

/-- A timer that no call of a run ends lets its message through in the run, or is still
active at its end. -/
theorem active_run {key : Key} {generation : Nat}
    (active : KeyMap.get? scheduler.timers key = some generation) (calls : List (Call Key))
    (kept : ∀ call ∈ calls, call.ends key = false) :
    ⟨key, generation⟩ ∈ (scheduler.run calls).2 ∨
      KeyMap.get? (scheduler.run calls).1.timers key = some generation := by
  induction calls generalizing scheduler with
  | nil => exact .inr active
  | cons call rest ih =>
      simp only [TimerScheduler.run, List.mem_append]
      rcases active_apply active (kept call (List.mem_cons_self ..)) with now | still
      · exact .inl (.inl now)
      · rcases ih still (fun later member => kept later (List.mem_cons_of_mem _ member)) with
          passed | stays
        · exact .inl (.inr passed)
        · exact .inr stays

/-- The messages a run lets through carry distinct generations. -/
theorem Fresh.nodup_run (fresh : Fresh scheduler) (calls : List (Call Key)) :
    ((scheduler.run calls).2.map TimeoutElapsed.generation).Nodup := by
  induction calls generalizing scheduler with
  | nil => simp [TimerScheduler.run]
  | cons call rest ih =>
      simp only [TimerScheduler.run, List.map_append]
      refine List.Nodup.append (Call.nodup_passed call _) (ih (fresh.apply call)) ?_
      -- what gets through now spends its generation for the rest of the run
      intro generation now later
      obtain ⟨timerMsg, passedNow, rfl⟩ := List.mem_map.mp now
      obtain ⟨laterMsg, passedLater, same⟩ := List.mem_map.mp later
      exact (fresh.spent_of_passed passedNow).run rest laterMsg passedLater same

end Run

/-- A message gets through exactly when it carries the generation of the timer active under
its key, and that timer is then no longer active. -/
theorem interceptTimerMsg_spec (scheduler : TimerScheduler Key) (timerMsg : TimeoutElapsed Key) :
    ((scheduler.interceptTimerMsg timerMsg).2.isSome ↔
        KeyMap.get? scheduler.timers timerMsg.key = some timerMsg.generation) ∧
      ((scheduler.interceptTimerMsg timerMsg).2.isSome →
        (scheduler.interceptTimerMsg timerMsg).2 = some timerMsg.key ∧
          (scheduler.interceptTimerMsg timerMsg).1.isTimerActive timerMsg.key = false) := by
  rw [interceptTimerMsg_eq]
  split
  · next active => simp [active, isTimerActive, get?_cancel]
  · next inactive => simp [inactive]

/-- A timer started after any run and ended by no call since lets the message its task sends
through exactly once, wherever that message is delivered and however the run goes on. -/
theorem count_started_run (before middle after : List (Call Key)) (key : Key)
    (kept : ∀ call ∈ middle, call.ends key = false) :
    let started := ((new : TimerScheduler Key).run before).1.startTimer key
    ((new : TimerScheduler Key).run
        (before ++ .startTimer key :: (middle ++ .interceptTimerMsg started.2 :: after))).2.count
      started.2 = 1 := by
  intro started
  let scheduler := ((new : TimerScheduler Key).run before).1
  have message : started.2 = ⟨key, scheduler.generations⟩ := startTimer_message scheduler key
  have active : KeyMap.get? started.1.timers key = some scheduler.generations := by
    simp [started, scheduler, get?_startTimer]
  -- the message gets through in the middle of the run, or at its delivery
  have passes : started.2 ∈ (started.1.run (middle ++ .interceptTimerMsg started.2 :: after)).2 := by
    rw [run_append, List.mem_append, message]
    rcases active_run active middle kept with inMiddle | stillActive
    · exact .inl inMiddle
    · right
      simp [TimerScheduler.run, Call.apply, interceptTimerMsg_eq, stillActive, Call.passed]
  have member : started.2 ∈ ((new : TimerScheduler Key).run
      (before ++ .startTimer key :: (middle ++ .interceptTimerMsg started.2 :: after))).2 := by
    rw [run_append]
    simp only [TimerScheduler.run, Call.apply, Call.passed, List.nil_append, List.mem_append]
    exact .inr passes
  -- and at most once, since the generations let through are distinct
  have distinct := List.Nodup.of_map _ (fresh_new.nodup_run
    (before ++ .startTimer key :: (middle ++ .interceptTimerMsg started.2 :: after)))
  have atMostOnce := List.nodup_iff_count_le_one.mp distinct started.2
  have atLeastOnce := List.count_pos_iff.mpr member
  omega

theorem stale_timer_messages_discarded :
    (∀ (scheduler : TimerScheduler Key) (timerMsg : TimeoutElapsed Key),
      ((scheduler.interceptTimerMsg timerMsg).2.isSome ↔
          KeyMap.get? scheduler.timers timerMsg.key = some timerMsg.generation) ∧
        ((scheduler.interceptTimerMsg timerMsg).2.isSome →
          (scheduler.interceptTimerMsg timerMsg).2 = some timerMsg.key ∧
            (scheduler.interceptTimerMsg timerMsg).1.isTimerActive timerMsg.key = false)) ∧
      (∀ calls : List (Call Key),
        (((new : TimerScheduler Key).run calls).2.map TimeoutElapsed.generation).Nodup) ∧
      (∀ (before : List (Call Key)) (stop : Call Key) (after : List (Call Key)) (key : Key)
        (generation : Nat),
        KeyMap.get? ((new : TimerScheduler Key).run before).1.timers key = some generation →
        stop.ends key = true →
        ∀ timerMsg ∈ ((Call.apply ((new : TimerScheduler Key).run before).1 stop).1.run after).2,
          timerMsg.generation ≠ generation) ∧
      ∀ (before middle after : List (Call Key)) (key : Key),
        (∀ call ∈ middle, call.ends key = false) →
        ((new : TimerScheduler Key).run (before ++ .startTimer key :: (middle ++
            .interceptTimerMsg (((new : TimerScheduler Key).run before).1.startTimer key).2 ::
              after))).2.count (((new : TimerScheduler Key).run before).1.startTimer key).2 = 1 := by
  refine ⟨interceptTimerMsg_spec, fresh_new.nodup_run, ?_, count_started_run⟩
  intro before stop after key generation active ends
  exact ((fresh_new.run before).spent_of_ends active ends).run after

/-- A timer started twice under key 0: the first timer's message, already in the mailbox, is
discarded, and the second timer's message gets through once. -/
example : ((new : TimerScheduler Nat).run [.startTimer 0, .startTimer 0, .interceptTimerMsg ⟨0, 1⟩,
    .interceptTimerMsg ⟨0, 2⟩, .interceptTimerMsg ⟨0, 2⟩]).2 = [⟨0, 2⟩] := by
  decide

end TimerScheduler

end Malachite.Engine
