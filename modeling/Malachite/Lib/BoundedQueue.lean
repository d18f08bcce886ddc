import Malachite.Lib.KeyMap

/-! A queue of values grouped by an ordered index, holding at most `capacity`
indices.  A value for a new index when the queue is full takes the place of
the highest index if it is below it, and is dropped otherwise.  The number of
indices never exceeds the capacity: the queue carries that bound, and `push`
proves it again for the queue it builds.

After pushes alone the queue holds the `capacity` smallest indices pushed, each with every
value pushed under it (`reference`).  The invariant `Keeps` carries this through each push:
an index pushed and not held lies above every index held, so it can never again be among the
smallest. -/

variable {ι τ : Type}

structure BoundedQueue (ι τ : Type) where
  capacity : Nat
  queue : List (ι × List τ)
  distinct : (queue.map Prod.fst).Nodup
  bounded : queue.length ≤ capacity

namespace BoundedQueue

def new (capacity : Nat) : BoundedQueue ι τ := ⟨capacity, [], List.nodup_nil, Nat.zero_le _⟩

/-- The number of indices in the queue. -/
def len (queue : BoundedQueue ι τ) : Nat := queue.queue.length

theorem len_le_capacity (queue : BoundedQueue ι τ) : queue.len ≤ queue.capacity :=
  queue.bounded

section Push

variable [LinearOrder ι]

/-- The highest index, the one a full queue evicts. -/
def lastIndex? (queue : BoundedQueue ι τ) : Option ι := (queue.queue.map Prod.fst).max?

/-- Dropping the highest index leaves room for one more. -/
theorem length_evict_lt {queue : BoundedQueue ι τ} {highest : ι}
    (last : queue.lastIndex? = some highest) :
    (KeyMap.retain queue.queue fun index => index != highest).length < queue.queue.length := by
  have member : highest ∈ queue.queue.map Prod.fst := List.max?_mem last
  obtain ⟨entry, held, rfl⟩ := List.mem_map.mp member
  exact List.length_filter_lt_length_iff_exists.mpr ⟨entry, held, by simp⟩

/-- Store a value under its index.  The flag says whether it was stored. -/
def push (queue : BoundedQueue ι τ) (index : ι) (value : τ) : BoundedQueue ι τ × Bool :=
  match found : KeyMap.get? queue.queue index with
  | some values =>
      (⟨queue.capacity, KeyMap.insert queue.queue index (values ++ [value]),
        KeyMap.nodup_keys_insert queue.distinct index _,
        (KeyMap.length_insert_of_get? found _).symm ▸ queue.bounded⟩, true)
  | none =>
      if room : queue.queue.length < queue.capacity then
        (⟨queue.capacity, KeyMap.insert queue.queue index [value],
          KeyMap.nodup_keys_insert queue.distinct index _,
          Nat.le_trans (KeyMap.length_insert_le _ index _) room⟩, true)
      else
        match last : queue.lastIndex? with
        | some highest =>
            if index < highest then
              -- the full queue gives up its highest index for the new one
              (⟨queue.capacity,
                KeyMap.insert (KeyMap.retain queue.queue fun index => index != highest) index [value],
                KeyMap.nodup_keys_insert (KeyMap.nodup_keys_retain queue.distinct _) index _,
                Nat.le_trans (KeyMap.length_insert_le _ index _)
                  (Nat.le_trans (length_evict_lt last) queue.bounded)⟩, true)
            else (queue, false)
        | none => (queue, false)

end Push

section Operations

variable [LinearOrder ι]

/-- `shift`: drop the indices below `minIndex`. -/
def shift (queue : BoundedQueue ι τ) (minIndex : ι) : BoundedQueue ι τ :=
  ⟨queue.capacity, KeyMap.retain queue.queue fun index => decide (minIndex ≤ index),
    KeyMap.nodup_keys_retain queue.distinct _,
    Nat.le_trans (List.length_filter_le _ _) queue.bounded⟩

/-- `take`: remove an index, handing back its values in push order. -/
def take (queue : BoundedQueue ι τ) (index : ι) : BoundedQueue ι τ × List τ :=
  (⟨queue.capacity, KeyMap.retain queue.queue fun other => other != index,
      KeyMap.nodup_keys_retain queue.distinct _,
      Nat.le_trans (List.length_filter_le _ _) queue.bounded⟩,
    (KeyMap.get? queue.queue index).getD [])

def shiftAndTake (queue : BoundedQueue ι τ) (minIndex : ι) : BoundedQueue ι τ × List τ :=
  (queue.shift minIndex).take minIndex

theorem get?_shift (queue : BoundedQueue ι τ) (minIndex wanted : ι) :
    KeyMap.get? (queue.shift minIndex).queue wanted =
      if minIndex ≤ wanted then KeyMap.get? queue.queue wanted else none := by
  simp [shift, KeyMap.get?_retain]

theorem get?_take (queue : BoundedQueue ι τ) (index wanted : ι) :
    KeyMap.get? (queue.take index).1.queue wanted =
      if wanted = index then none else KeyMap.get? queue.queue wanted := by
  simp only [take, KeyMap.get?_retain, bne_iff_ne, ne_eq]
  split <;> simp_all

/-- The queue after a sequence of pushes. -/
def pushAll (queue : BoundedQueue ι τ) (history : List (ι × τ)) : BoundedQueue ι τ :=
  history.foldl (fun queue pushed => (queue.push pushed.1 pushed.2).1) queue

theorem pushAll_append_single (queue : BoundedQueue ι τ) (history : List (ι × τ)) (index : ι)
    (value : τ) :
    queue.pushAll (history ++ [(index, value)]) = ((queue.pushAll history).push index value).1 := by
  simp [pushAll]

theorem capacity_push (queue : BoundedQueue ι τ) (index : ι) (value : τ) :
    (queue.push index value).1.capacity = queue.capacity := by
  unfold push
  split
  · rfl
  · split
    · rfl
    · split
      · split <;> rfl
      · rfl

theorem capacity_pushAll (queue : BoundedQueue ι τ) (history : List (ι × τ)) :
    (queue.pushAll history).capacity = queue.capacity := by
  induction history using List.reverseRecOn with
  | nil => rfl
  | append_singleton history pushed ih =>
      rw [pushAll_append_single, capacity_push, ih]

theorem lastIndex?_eq_some {queue : BoundedQueue ι τ} {highest : ι}
    (last : queue.lastIndex? = some highest) :
    highest ∈ queue.queue.map Prod.fst ∧ ∀ index ∈ queue.queue.map Prod.fst, index ≤ highest :=
  List.max?_eq_some_iff.mp last

theorem lastIndex?_eq_none {queue : BoundedQueue ι τ} (last : queue.lastIndex? = none) :
    queue.queue = [] := by
  simpa [lastIndex?] using last

/-- Everything `push` can do: append to an index it holds, add an index while there is
room, give up the highest index for a lower new one, or refuse. -/
theorem push_cases (queue : BoundedQueue ι τ) (index : ι) (value : τ) :
    (∃ values, KeyMap.get? queue.queue index = some values ∧
        (queue.push index value).1.queue = KeyMap.insert queue.queue index (values ++ [value]) ∧
        (queue.push index value).2 = true) ∨
      (KeyMap.get? queue.queue index = none ∧ queue.len < queue.capacity ∧
        (queue.push index value).1.queue = KeyMap.insert queue.queue index [value] ∧
        (queue.push index value).2 = true) ∨
      (∃ highest, KeyMap.get? queue.queue index = none ∧ queue.capacity ≤ queue.len ∧
        queue.lastIndex? = some highest ∧ index < highest ∧
        (queue.push index value).1.queue =
          KeyMap.insert (KeyMap.retain queue.queue fun index => index != highest) index [value] ∧
        (queue.push index value).2 = true) ∨
      (KeyMap.get? queue.queue index = none ∧ queue.capacity ≤ queue.len ∧
        (∀ highest, queue.lastIndex? = some highest → highest ≤ index) ∧
        queue.push index value = (queue, false)) := by
  unfold push
  split
  · next values found => exact .inl ⟨values, found, rfl, rfl⟩
  · next absent =>
      split
      · next room => exact .inr (.inl ⟨absent, room, rfl, rfl⟩)
      · next full =>
          have full : queue.capacity ≤ queue.len := Nat.le_of_not_lt full
          split
          · next highest last =>
              split
              · next lower => exact .inr (.inr (.inl ⟨highest, absent, full, last, lower, rfl, rfl⟩))
              · next higher =>
                  refine .inr (.inr (.inr ⟨absent, full, fun other same => ?_, rfl⟩))
                  rw [last] at same
                  cases same
                  exact le_of_not_gt higher
          · next last =>
              refine .inr (.inr (.inr ⟨absent, full, fun other same => ?_, rfl⟩))
              rw [last] at same
              cases same

end Operations

section Reference

variable [LinearOrder ι]

/-- The values pushed under an index, in push order. -/
def valuesAt (history : List (ι × τ)) (index : ι) : List τ :=
  history.filterMap fun pushed => if pushed.1 = index then some pushed.2 else none

/-- An index is among the `capacity` smallest distinct indices pushed: it was pushed, and
fewer than `capacity` distinct indices pushed lie below it. -/
def Kept (capacity : Nat) (history : List (ι × τ)) (index : ι) : Prop :=
  index ∈ history.map Prod.fst ∧
    ((history.map Prod.fst).toFinset.filter (· < index)).card < capacity

instance (capacity : Nat) (history : List (ι × τ)) : DecidablePred (Kept capacity history) :=
  fun _ => inferInstanceAs (Decidable (_ ∧ _))

/-- What pushes alone should leave: each of the `capacity` smallest indices pushed, with
every value pushed under it. -/
def reference (capacity : Nat) (history : List (ι × τ)) (index : ι) : Option (List τ) :=
  if Kept capacity history index then some (valuesAt history index) else none

theorem valuesAt_append_single (history : List (ι × τ)) (index : ι) (value : τ) (wanted : ι) :
    valuesAt (history ++ [(index, value)]) wanted =
      valuesAt history wanted ++ if index = wanted then [value] else [] := by
  by_cases same : index = wanted <;> simp [valuesAt, same]

theorem valuesAt_of_not_mem {history : List (ι × τ)} {index : ι}
    (absent : index ∉ history.map Prod.fst) : valuesAt history index = [] := by
  simp only [valuesAt, List.filterMap_eq_nil_iff]
  intro pushed member
  have other : pushed.1 ≠ index := fun same => absent (List.mem_map.mpr ⟨pushed, member, same⟩)
  simp [other]

/-- What the queue keeps of the pushes so far: an index it holds was pushed and holds every
value pushed under it; an index pushed and not held lies above every index held, and the
queue is then full. -/
structure Keeps (queue : BoundedQueue ι τ) (history : List (ι × τ)) : Prop where
  held : ∀ index values, KeyMap.get? queue.queue index = some values →
    index ∈ history.map Prod.fst ∧ values = valuesAt history index
  dropped : ∀ index ∈ history.map Prod.fst, KeyMap.get? queue.queue index = none →
    queue.capacity ≤ queue.len ∧ ∀ other ∈ queue.queue.map Prod.fst, other < index

theorem keeps_new (capacity : Nat) : Keeps (new capacity : BoundedQueue ι τ) [] :=
  ⟨fun _ _ found => by simp [new] at found, fun _ member => by simp at member⟩

section Step

variable {queue next : BoundedQueue ι τ} {history : List (ι × τ)} {index : ι} {value : τ}

omit [LinearOrder ι] in
/-- An index other than the one pushed last was pushed before. -/
theorem mem_history_of_ne {wanted : ι} (pushed : wanted ∈ (history ++ [(index, value)]).map Prod.fst)
    (other : ¬index = wanted) : wanted ∈ history.map Prod.fst := by
  simpa [Ne.symm other] using pushed

/-- An index the push leaves alone still holds every value pushed under it. -/
theorem Keeps.held_of_ne (keeps : Keeps queue history) {wanted : ι} {values : List τ}
    (other : ¬index = wanted) (found : KeyMap.get? queue.queue wanted = some values) :
    wanted ∈ (history ++ [(index, value)]).map Prod.fst ∧
      values = valuesAt (history ++ [(index, value)]) wanted := by
  obtain ⟨pushed, rfl⟩ := keeps.held _ _ found
  simp [pushed, valuesAt_append_single, other]

/-- An index pushed for the first time holds the one value pushed with it. -/
theorem held_fresh (fresh : index ∉ history.map Prod.fst) :
    index ∈ (history ++ [(index, value)]).map Prod.fst ∧
      [value] = valuesAt (history ++ [(index, value)]) index := by
  simp [valuesAt_append_single, valuesAt_of_not_mem fresh]

/-- The value joins an index the queue holds. -/
theorem Keeps.append (keeps : Keeps queue history) {values : List τ}
    (found : KeyMap.get? queue.queue index = some values)
    (stored : next.queue = KeyMap.insert queue.queue index (values ++ [value]))
    (capacity : next.capacity = queue.capacity) : Keeps next (history ++ [(index, value)]) := by
  have member : index ∈ queue.queue.map Prod.fst := KeyMap.mem_keys_of_get? found
  constructor
  · intro wanted held got
    rw [stored, KeyMap.get?_insert] at got
    split at got
    · next same =>
        subst same
        cases got
        obtain ⟨pushed, rfl⟩ := keeps.held _ _ found
        simp [pushed, valuesAt_append_single]
    · next other => exact keeps.held_of_ne other got
  · intro wanted pushed absent
    rw [stored, KeyMap.get?_insert] at absent
    split at absent
    · cases absent
    · next other =>
        obtain ⟨full, below⟩ := keeps.dropped wanted (mem_history_of_ne pushed other) absent
        have keys : next.queue.map Prod.fst = queue.queue.map Prod.fst := by
          rw [stored, KeyMap.keys_insert, if_pos member]
        refine ⟨?_, by rw [keys]; exact below⟩
        rw [capacity]
        simpa [len, stored, KeyMap.length_insert_of_get? found] using full

/-- An index the queue does not hold but was pushed can only come back when it is below
every index held. -/
theorem Keeps.not_pushed_of_below (keeps : Keeps queue history)
    (absent : KeyMap.get? queue.queue index = none) {other : ι}
    (held : other ∈ queue.queue.map Prod.fst) (below : index ≤ other) :
    index ∉ history.map Prod.fst := by
  intro pushed
  have above := (keeps.dropped index pushed absent).2 other held
  exact absurd below (not_le.mpr above)

/-- The new index is stored with no other one given up. -/
theorem Keeps.add (keeps : Keeps queue history) (absent : KeyMap.get? queue.queue index = none)
    (room : queue.len < queue.capacity)
    (stored : next.queue = KeyMap.insert queue.queue index [value]) :
    Keeps next (history ++ [(index, value)]) := by
  -- with room left, no index pushed was ever dropped
  have fresh : index ∉ history.map Prod.fst := fun pushed =>
    absurd (keeps.dropped index pushed absent).1 (not_le.mpr room)
  constructor
  · intro wanted values got
    rw [stored, KeyMap.get?_insert] at got
    split at got
    · next same =>
        subst same
        cases got
        exact held_fresh fresh
    · next other => exact keeps.held_of_ne other got
  · intro wanted pushed missing
    rw [stored, KeyMap.get?_insert] at missing
    split at missing
    · cases missing
    · next other =>
        exact absurd (keeps.dropped wanted (mem_history_of_ne pushed other) missing).1
          (not_le.mpr room)

/-- The full queue gives up its highest index for a lower new one. -/
theorem Keeps.evict (keeps : Keeps queue history) (absent : KeyMap.get? queue.queue index = none)
    (full : queue.capacity ≤ queue.len) {highest : ι} (last : queue.lastIndex? = some highest)
    (lower : index < highest)
    (stored : next.queue =
      KeyMap.insert (KeyMap.retain queue.queue fun index => index != highest) index [value])
    (capacity : next.capacity = queue.capacity) :
    Keeps next (history ++ [(index, value)]) := by
  obtain ⟨top, highestAbove⟩ := lastIndex?_eq_some last
  have fresh : index ∉ history.map Prod.fst :=
    keeps.not_pushed_of_below absent top lower.le
  have notKept : index ∉ (KeyMap.retain queue.queue fun index => index != highest).map Prod.fst := by
    rw [KeyMap.keys_retain]
    exact fun member => KeyMap.get?_eq_none_iff.mp absent (List.mem_of_mem_filter member)
  have got : ∀ wanted, KeyMap.get? next.queue wanted =
      if index = wanted then some [value]
      else if wanted != highest then KeyMap.get? queue.queue wanted else none := by
    intro wanted
    rw [stored, KeyMap.get?_insert, KeyMap.get?_retain]
  constructor
  · intro wanted values found
    rw [got] at found
    split at found
    · next same =>
        subst same
        cases found
        exact held_fresh fresh
    · next other =>
        split at found
        · exact keeps.held_of_ne other found
        · cases found
  · intro wanted pushed missing
    rw [got] at missing
    split at missing
    · cases missing
    · next other =>
        -- the highest index is given up or was above nothing dropped: either way it is at
        -- most the missing index, and every index now held is below it
        have atLeast : highest ≤ wanted := by
          by_cases same : wanted = highest
          · exact same.ge
          · rw [if_pos (bne_iff_ne.mpr same)] at missing
            exact ((keeps.dropped wanted (mem_history_of_ne pushed other) missing).2 highest top).le
        have length : next.len = queue.len := by
          have evicted := KeyMap.length_retain_ne queue.distinct top
          simp only [len, stored, KeyMap.length_insert, if_neg notKept]
          omega
        refine ⟨by rw [capacity, length]; exact full, fun kept member => ?_⟩
        rw [stored, KeyMap.keys_insert, if_neg notKept, KeyMap.keys_retain] at member
        rcases List.mem_append.mp member with old | new
        · obtain ⟨held, other⟩ := List.mem_filter.mp old
          have belowTop : kept < highest :=
            lt_of_le_of_ne (highestAbove kept held) (bne_iff_ne.mp other)
          exact lt_of_lt_of_le belowTop atLeast
        · rw [List.mem_singleton.mp new]
          exact lt_of_lt_of_le lower atLeast

/-- The full queue refuses an index at or above its highest one. -/
theorem Keeps.refuse (keeps : Keeps queue history) (absent : KeyMap.get? queue.queue index = none)
    (full : queue.capacity ≤ queue.len)
    (atLeast : ∀ highest, queue.lastIndex? = some highest → highest ≤ index) :
    Keeps queue (history ++ [(index, value)]) := by
  constructor
  · intro wanted values found
    have other : index ≠ wanted := by
      rintro rfl
      rw [absent] at found
      cases found
    exact keeps.held_of_ne other found
  · intro wanted pushed missing
    by_cases same : wanted = index
    · subst same
      refine ⟨full, fun kept member => ?_⟩
      cases last : queue.lastIndex? with
      | none => simp [lastIndex?_eq_none last] at member
      | some highest =>
          have notSame : kept ≠ wanted := fun same =>
            KeyMap.get?_eq_none_iff.mp absent (same ▸ member)
          exact lt_of_le_of_ne
            (le_trans ((lastIndex?_eq_some last).2 kept member) (atLeast highest last)) notSame
    · exact keeps.dropped wanted (mem_history_of_ne pushed (Ne.symm same)) missing

theorem Keeps.push (keeps : Keeps queue history) (index : ι) (value : τ) :
    Keeps (queue.push index value).1 (history ++ [(index, value)]) := by
  rcases push_cases queue index value with ⟨values, found, stored, -⟩ | rest
  · exact keeps.append found stored (capacity_push queue index value)
  rcases rest with ⟨absent, room, stored, -⟩ | ⟨highest, absent, full, last, lower, stored, -⟩ |
      ⟨absent, full, atLeast, refused⟩
  · exact keeps.add absent room stored
  · exact keeps.evict absent full last lower stored (capacity_push queue index value)
  · rw [refused]
    exact keeps.refuse absent full atLeast

end Step

theorem keeps_pushAll (capacity : Nat) (history : List (ι × τ)) :
    Keeps ((new capacity : BoundedQueue ι τ).pushAll history) history := by
  induction history using List.reverseRecOn with
  | nil => exact keeps_new capacity
  | append_singleton history pushed ih =>
      rw [pushAll_append_single]
      exact ih.push pushed.1 pushed.2

/-- A queue that keeps the pushes so far is their reference: an index it holds has fewer
than `capacity` indices pushed below it, all held; an index pushed and not held has the
whole full queue below it. -/
theorem Keeps.get?_eq_reference {queue : BoundedQueue ι τ} {history : List (ι × τ)}
    (keeps : Keeps queue history) (index : ι) :
    KeyMap.get? queue.queue index = reference queue.capacity history index := by
  have keysCard : (queue.queue.map Prod.fst).toFinset.card = queue.len := by
    rw [List.toFinset_card_of_nodup queue.distinct, List.length_map, len]
  cases found : KeyMap.get? queue.queue index with
  | some values =>
      obtain ⟨pushed, rfl⟩ := keeps.held _ _ found
      -- every index pushed below a held one is held
      have below : (history.map Prod.fst).toFinset.filter (· < index) ⊆
          (queue.queue.map Prod.fst).toFinset.erase index := by
        intro other member
        obtain ⟨earlier, lower⟩ := Finset.mem_filter.mp member
        have held : other ∈ queue.queue.map Prod.fst := by
          by_contra missing
          have above := (keeps.dropped other (List.mem_toFinset.mp earlier)
            (KeyMap.get?_eq_none_iff.mpr missing)).2 index (KeyMap.mem_keys_of_get? found)
          exact absurd lower (not_lt.mpr above.le)
        exact Finset.mem_erase.mpr ⟨lower.ne, List.mem_toFinset.mpr held⟩
      have fewer := Finset.card_le_card below
      rw [Finset.card_erase_of_mem (List.mem_toFinset.mpr (KeyMap.mem_keys_of_get? found)),
        keysCard] at fewer
      have present : 0 < queue.len := by
        simpa [len] using List.length_pos_of_mem (KeyMap.mem_keys_of_get? found)
      have bounded := queue.len_le_capacity
      rw [reference, if_pos ⟨pushed, by omega⟩]
  | none =>
      rw [reference, if_neg]
      rintro ⟨pushed, fewer⟩
      obtain ⟨full, below⟩ := keeps.dropped index pushed found
      -- every index held was pushed and lies below the dropped one
      have heldBelow : (queue.queue.map Prod.fst).toFinset ⊆
          (history.map Prod.fst).toFinset.filter (· < index) := by
        intro other member
        have held := List.mem_toFinset.mp member
        obtain ⟨values, got⟩ := Option.ne_none_iff_exists'.mp
          (mt KeyMap.get?_eq_none_iff.mp (not_not.mpr held))
        exact Finset.mem_filter.mpr
          ⟨List.mem_toFinset.mpr (keeps.held other values got).1, below other held⟩
      have atLeast := Finset.card_le_card heldBelow
      rw [keysCard] at atLeast
      omega

example : ((new 2 : BoundedQueue Nat Nat).pushAll [(5, 0), (3, 1), (7, 2), (3, 3)]).queue =
    [(5, [0]), (3, [1, 3])] := by
  decide

/-- A call of the queue's interface, as `State::buffer_input` and
`State::take_pending_inputs` make them. -/
inductive Call (ι τ : Type) where
  | push (index : ι) (value : τ)
  | shift (minIndex : ι)
  | take (index : ι)

def Call.apply (queue : BoundedQueue ι τ) : Call ι τ → BoundedQueue ι τ
  | .push index value => (queue.push index value).1
  | .shift minIndex => queue.shift minIndex
  | .take index => (queue.take index).1

def run (queue : BoundedQueue ι τ) (calls : List (Call ι τ)) : BoundedQueue ι τ :=
  calls.foldl Call.apply queue

theorem capacity_run (queue : BoundedQueue ι τ) (calls : List (Call ι τ)) :
    (queue.run calls).capacity = queue.capacity := by
  induction calls generalizing queue with
  | nil => rfl
  | cons call rest ih =>
      have step : (Call.apply queue call).capacity = queue.capacity := by
        cases call with
        | push index value => exact capacity_push queue index value
        | shift minIndex => rfl
        | take index => rfl
      rw [run, List.foldl_cons, ← run, ih, step]

theorem push_retains (queue : BoundedQueue ι τ) (index : ι) (value : τ) :
    (queue.push index value).2 = true ↔
      ∃ values, KeyMap.get? (queue.push index value).1.queue index = some (values ++ [value]) := by
  rcases push_cases queue index value with ⟨values, -, stored, accepted⟩ | rest
  · simp [accepted, stored]
  rcases rest with ⟨-, -, stored, accepted⟩ | ⟨highest, -, -, -, -, stored, accepted⟩ |
      ⟨absent, -, -, refused⟩
  · simp [accepted, stored]
  · simp [accepted, stored]
  · simp [refused, absent]

theorem keeps_lowest_indices (capacity : Nat) :
    (∀ calls : List (Call ι τ), ((new capacity).run calls).len ≤ capacity) ∧
      (∀ history : List (ι × τ), ∀ index,
        KeyMap.get? ((new capacity).pushAll history).queue index =
          reference capacity history index) ∧
      (∀ (queue : BoundedQueue ι τ) index value, (queue.push index value).2 = true ↔
        ∃ values, KeyMap.get? (queue.push index value).1.queue index = some (values ++ [value])) ∧
      (∀ (history : List (ι × τ)) index value,
        (((new capacity).pushAll history).push index value).2 = true ↔
          Kept capacity (history ++ [(index, value)]) index) ∧
      (∀ (queue : BoundedQueue ι τ) minIndex wanted,
        KeyMap.get? (queue.shift minIndex).queue wanted =
          if minIndex ≤ wanted then KeyMap.get? queue.queue wanted else none) ∧
      (∀ (queue : BoundedQueue ι τ) index, (queue.take index).2 =
          (KeyMap.get? queue.queue index).getD [] ∧
        ∀ wanted, KeyMap.get? (queue.take index).1.queue wanted =
          if wanted = index then none else KeyMap.get? queue.queue wanted) := by
  refine ⟨fun calls => ?_, fun history index => ?_, push_retains, fun history index value => ?_,
    get?_shift, fun queue index => ⟨rfl, get?_take queue index⟩⟩
  · have bounded := ((new capacity : BoundedQueue ι τ).run calls).len_le_capacity
    rwa [capacity_run] at bounded
  · have keeps := keeps_pushAll (τ := τ) capacity history
    rw [keeps.get?_eq_reference, capacity_pushAll]
    rfl
  · -- the flag says the index is held after the push, and the queue then is the reference
    have keeps := keeps_pushAll capacity (history ++ [(index, value)])
    rw [pushAll_append_single] at keeps
    have capacity_eq : (((new capacity : BoundedQueue ι τ).pushAll history).push index value).1.capacity
        = capacity := by
      rw [capacity_push, capacity_pushAll]
      rfl
    rw [push_retains, keeps.get?_eq_reference, capacity_eq, reference]
    split
    · next kept => simp [kept, valuesAt_append_single]
    · next notKept => simp [notKept]

end Reference

section Handing

variable [LinearOrder ι]

/-- The values held under an index; none where the queue does not hold it. -/
def held (queue : BoundedQueue ι τ) (index : ι) : List τ :=
  (KeyMap.get? queue.queue index).getD []

/-- What a call hands back, each value with the index it was taken at: the values `take`
removes, none for the other calls. -/
def Call.handed (queue : BoundedQueue ι τ) : Call ι τ → List (ι × τ)
  | .take index => (queue.take index).2.map (index, ·)
  | _ => []

/-- The values the `take` calls of a run hand back, in order. -/
def taken (queue : BoundedQueue ι τ) : List (Call ι τ) → List (ι × τ)
  | [] => []
  | call :: rest => Call.handed queue call ++ taken (Call.apply queue call) rest

/-- The pushes of a run, in order. -/
def pushes : List (Call ι τ) → List (ι × τ)
  | [] => []
  | .push index value :: rest => (index, value) :: pushes rest
  | .shift _ :: rest => pushes rest
  | .take _ :: rest => pushes rest

omit [LinearOrder ι] in
theorem pushes_cons (call : Call ι τ) (rest : List (Call ι τ)) :
    pushes (call :: rest) = pushes [call] ++ pushes rest := by
  cases call <;> rfl

theorem valuesAt_append (first second : List (ι × τ)) (index : ι) :
    valuesAt (first ++ second) index = valuesAt first index ++ valuesAt second index := by
  simp [valuesAt]

/-- The values taken under one index, paired with it, are found under it alone. -/
theorem valuesAt_map_pair (values : List τ) (index wanted : ι) :
    valuesAt (values.map (index, ·)) wanted = if index = wanted then values else [] := by
  by_cases same : index = wanted <;> simp [valuesAt, List.filterMap_map, same]

/-- A push adds at most its value under its own index, and may drop what another index
held. -/
theorem held_push_sublist (queue : BoundedQueue ι τ) (index : ι) (value : τ) (wanted : ι) :
    ((queue.push index value).1.held wanted).Sublist
      (queue.held wanted ++ if index = wanted then [value] else []) := by
  rcases push_cases queue index value with ⟨values, found, stored, -⟩ | rest
  · simp only [held, stored, KeyMap.get?_insert]
    split
    · next same =>
        subst same
        simp [found]
    · next other => simp
  rcases rest with ⟨absent, -, stored, -⟩ | ⟨highest, absent, -, -, -, stored, -⟩ |
      ⟨-, -, -, refused⟩
  · simp only [held, stored, KeyMap.get?_insert]
    split
    · next same =>
        subst same
        simp [absent]
    · next other => simp
  · -- the highest index is given up: what it held is dropped
    simp only [held, stored, KeyMap.get?_insert, KeyMap.get?_retain]
    split
    · next same =>
        subst same
        simp [absent]
    · next other =>
        split
        · simp
        · exact List.nil_sublist _
  · rw [refused]
    exact List.sublist_append_left _ _

theorem held_shift_sublist (queue : BoundedQueue ι τ) (minIndex wanted : ι) :
    ((queue.shift minIndex).held wanted).Sublist (queue.held wanted) := by
  simp only [held, get?_shift]
  split
  · exact List.Sublist.refl _
  · exact List.nil_sublist _

theorem held_take (queue : BoundedQueue ι τ) (index wanted : ι) :
    (queue.take index).1.held wanted = if wanted = index then [] else queue.held wanted := by
  simp only [held, get?_take]
  split <;> rfl

/-- For each index, the values handed back and those still held are, in order, among the
values pushed under it. -/
def Conserves (queue : BoundedQueue ι τ) (pushed handedBack : List (ι × τ)) : Prop :=
  ∀ index, (valuesAt handedBack index ++ queue.held index).Sublist (valuesAt pushed index)

theorem conserves_new (capacity : Nat) : Conserves (new capacity : BoundedQueue ι τ) [] [] := by
  intro index
  simp [held, new, valuesAt]

theorem Conserves.apply {queue : BoundedQueue ι τ} {pushed handedBack : List (ι × τ)}
    (conserves : Conserves queue pushed handedBack) (call : Call ι τ) :
    Conserves (Call.apply queue call) (pushed ++ pushes [call])
      (handedBack ++ Call.handed queue call) := by
  intro wanted
  cases call with
  | push index value =>
      have added := held_push_sublist queue index value wanted
      simp only [Call.apply, Call.handed, pushes, List.append_nil, valuesAt_append_single]
      refine (added.append_left _).trans ?_
      rw [← List.append_assoc]
      exact (conserves wanted).append_right _
  | shift minIndex =>
      simp only [Call.apply, Call.handed, pushes, List.append_nil]
      exact ((held_shift_sublist queue minIndex wanted).append_left _).trans (conserves wanted)
  | take index =>
      -- what `take` hands back under its index is exactly what the queue held there
      simp only [Call.apply, Call.handed, pushes, List.append_nil, valuesAt_append]
      have handedHeld : (queue.take index).2 = queue.held index := rfl
      rw [handedHeld, valuesAt_map_pair, held_take]
      by_cases same : wanted = index
      · subst same
        simpa using conserves wanted
      · simpa [same, Ne.symm same] using conserves wanted

theorem Conserves.run {queue : BoundedQueue ι τ} {pushed handedBack : List (ι × τ)}
    (conserves : Conserves queue pushed handedBack) (calls : List (Call ι τ)) :
    Conserves (queue.run calls) (pushed ++ pushes calls) (handedBack ++ queue.taken calls) := by
  induction calls generalizing queue pushed handedBack with
  | nil => simpa [BoundedQueue.run, pushes, taken] using conserves
  | cons call rest ih =>
      have step := ih (conserves.apply call)
      rw [List.append_assoc, List.append_assoc, ← pushes_cons] at step
      exact step


/-- A push with room for a new index stores its value: nothing is dropped. -/
theorem held_push_of_room (queue : BoundedQueue ι τ) (index : ι) (value : τ)
    (room : KeyMap.get? queue.queue index = none → queue.len < queue.capacity) (wanted : ι) :
    (queue.push index value).1.held wanted =
      queue.held wanted ++ if index = wanted then [value] else [] := by
  rcases push_cases queue index value with ⟨values, found, stored, -⟩ | rest
  · simp only [held, stored, KeyMap.get?_insert]
    split
    · next same =>
        subst same
        simp [found]
    · simp
  rcases rest with ⟨absent, -, stored, -⟩ | ⟨-, absent, full, -⟩ | ⟨absent, full, -⟩
  · simp only [held, stored, KeyMap.get?_insert]
    split
    · next same =>
        subst same
        simp [absent]
    · simp
  all_goals
    have free := room absent
    omega

/-- The keys a push leaves are those held before and its own. -/
theorem keys_push_subset (queue : BoundedQueue ι τ) (index : ι) (value : τ) :
    ∀ key ∈ (queue.push index value).1.queue.map Prod.fst,
      key ∈ queue.queue.map Prod.fst ∨ key = index := by
  intro key member
  rcases push_cases queue index value with ⟨_, _, stored, _⟩ | ⟨_, _, stored, _⟩ |
      ⟨highest, _, _, _, _, stored, _⟩ | ⟨_, _, _, refused⟩
  · rw [stored, KeyMap.keys_insert] at member
    split at member <;> simp_all
  · rw [stored, KeyMap.keys_insert] at member
    split at member <;> simp_all
  · rw [stored, KeyMap.keys_insert, KeyMap.keys_retain] at member
    split at member
    · exact .inl (List.mem_of_mem_filter member)
    · rcases List.mem_append.mp member with kept | added
      · exact .inl (List.mem_of_mem_filter kept)
      · exact .inr (List.mem_singleton.mp added)
  · rw [refused] at member
    exact .inl member

/-- A queue whose indices lie in a set no larger than its capacity: a push of an index of the
set always finds room. -/
structure Fits (queue : BoundedQueue ι τ) (indices : Finset ι) : Prop where
  keys : ∀ key ∈ queue.queue.map Prod.fst, key ∈ indices
  card : indices.card ≤ queue.capacity

theorem Fits.room {queue : BoundedQueue ι τ} {indices : Finset ι} (fits : Fits queue indices)
    {index : ι} (member : index ∈ indices) (absent : KeyMap.get? queue.queue index = none) :
    queue.len < queue.capacity := by
  have notHeld := KeyMap.get?_eq_none_iff.mp absent
  -- the indices held are those of the set other than the new one
  have held : (queue.queue.map Prod.fst).toFinset ⊆ indices.erase index := by
    intro key keyMember
    have key := List.mem_toFinset.mp keyMember
    exact Finset.mem_erase.mpr ⟨fun same => notHeld (same ▸ key), fits.keys _ key⟩
  have fewer := Finset.card_le_card held
  rw [List.toFinset_card_of_nodup queue.distinct, List.length_map,
    Finset.card_erase_of_mem member] at fewer
  have present := Finset.card_pos.mpr ⟨index, member⟩
  have bounded := fits.card
  simp only [len]
  omega

theorem Fits.apply {queue : BoundedQueue ι τ} {indices : Finset ι} (fits : Fits queue indices)
    (call : Call ι τ) (pushedIn : ∀ pushed ∈ pushes [call], pushed.1 ∈ indices) :
    Fits (Call.apply queue call) indices := by
  cases call with
  | push index value =>
      refine ⟨fun key member => ?_, by rw [Call.apply, capacity_push]; exact fits.card⟩
      rcases keys_push_subset queue index value key member with held | rfl
      · exact fits.keys key held
      · exact pushedIn (key, value) (by simp [pushes])
  | shift minIndex =>
      refine ⟨fun key member => fits.keys key ?_, fits.card⟩
      rw [Call.apply, shift, KeyMap.keys_retain] at member
      exact List.mem_of_mem_filter member
  | take index =>
      refine ⟨fun key member => fits.keys key ?_, fits.card⟩
      rw [Call.apply, take, KeyMap.keys_retain] at member
      exact List.mem_of_mem_filter member

/-- For one index, the values handed back and those still held are exactly the values
pushed under it. -/
def Exact (queue : BoundedQueue ι τ) (pushed handedBack : List (ι × τ)) (index : ι) : Prop :=
  valuesAt handedBack index ++ queue.held index = valuesAt pushed index

theorem Exact.apply {queue : BoundedQueue ι τ} {pushed handedBack : List (ι × τ)} {index : ι}
    {indices : Finset ι} (exact : Exact queue pushed handedBack index) (fits : Fits queue indices)
    (call : Call ι τ) (pushedIn : ∀ pushed ∈ pushes [call], pushed.1 ∈ indices)
    (notPast : ∀ minIndex, call = .shift minIndex → minIndex ≤ index) :
    Exact (Call.apply queue call) (pushed ++ pushes [call])
      (handedBack ++ Call.handed queue call) index := by
  unfold Exact at exact ⊢
  cases call with
  | push pushedIndex value =>
      have member : pushedIndex ∈ indices := pushedIn (pushedIndex, value) (by simp [pushes])
      simp only [Call.apply, Call.handed, pushes, List.append_nil, valuesAt_append_single]
      rw [held_push_of_room queue pushedIndex value (fits.room member), ← List.append_assoc, exact]
  | shift minIndex =>
      -- the shift stops below the index, which keeps what it holds
      have kept : (queue.shift minIndex).held index = queue.held index := by
        simp [held, get?_shift, notPast minIndex rfl]
      simpa [Call.apply, Call.handed, pushes, kept] using exact
  | take taken =>
      simp only [Call.apply, Call.handed, pushes, List.append_nil, valuesAt_append]
      have handedHeld : (queue.take taken).2 = queue.held taken := rfl
      rw [handedHeld, valuesAt_map_pair, held_take]
      by_cases same : index = taken
      · subst same
        simpa using exact
      · simpa [same, Ne.symm same] using exact

theorem Exact.run {queue : BoundedQueue ι τ} {pushed handedBack : List (ι × τ)} {index : ι}
    {indices : Finset ι} (exact : Exact queue pushed handedBack index) (fits : Fits queue indices)
    (calls : List (Call ι τ)) (pushedIn : ∀ pushed ∈ pushes calls, pushed.1 ∈ indices)
    (notPast : ∀ minIndex, Call.shift minIndex ∈ calls → minIndex ≤ index) :
    Exact (queue.run calls) (pushed ++ pushes calls) (handedBack ++ queue.taken calls) index := by
  induction calls generalizing queue pushed handedBack with
  | nil => simpa [BoundedQueue.run, pushes, taken] using exact
  | cons call rest ih =>
      have firstIn : ∀ pushed ∈ pushes [call], pushed.1 ∈ indices := fun pushed member =>
        pushedIn pushed (by rw [pushes_cons]; exact List.mem_append_left _ member)
      have restIn : ∀ pushed ∈ pushes rest, pushed.1 ∈ indices := fun pushed member =>
        pushedIn pushed (by rw [pushes_cons]; exact List.mem_append_right _ member)
      have step := ih (exact.apply fits call firstIn fun minIndex same => notPast minIndex
          (same ▸ List.mem_cons_self)) (fits.apply call firstIn) restIn
        fun minIndex member => notPast minIndex (List.mem_cons_of_mem _ member)
      rw [List.append_assoc, List.append_assoc, ← pushes_cons] at step
      exact step

/-- Over any run of `push`, `shift` and `take` from an empty queue, the values `take` hands
back under each index, followed by those the queue still holds there, are in order among the
values pushed under it: no value is handed back twice, under another index, or out of the
order in which it was pushed.  And none is lost while the run pushes no more distinct indices
than the capacity and no `shift` passes the index: then they are all the values pushed
under it. -/
theorem handed_back_once_and_kept (capacity : Nat) (calls : List (Call ι τ)) (index : ι) :
    (valuesAt ((new capacity).taken calls) index ++ ((new capacity).run calls).held index).Sublist
        (valuesAt (pushes calls) index) ∧
      (((pushes calls).map Prod.fst).toFinset.card ≤ capacity →
        (∀ minIndex, Call.shift minIndex ∈ calls → minIndex ≤ index) →
        valuesAt ((new capacity).taken calls) index ++ ((new capacity).run calls).held index =
          valuesAt (pushes calls) index) := by
  refine ⟨by simpa using (conserves_new capacity).run calls index, fun fitting notPast => ?_⟩
  have start : Exact (new capacity : BoundedQueue ι τ) [] [] index := by
    simp [Exact, held, new, valuesAt]
  have fits : Fits (new capacity : BoundedQueue ι τ) ((pushes calls).map Prod.fst).toFinset :=
    ⟨fun key member => by simp [new] at member, fitting⟩
  have pushedIn : ∀ pushed ∈ pushes calls, pushed.1 ∈ ((pushes calls).map Prod.fst).toFinset :=
    fun pushed member => List.mem_toFinset.mpr (List.mem_map_of_mem member)
  simpa [Exact] using start.run fits calls pushedIn notPast

end Handing

end BoundedQueue
