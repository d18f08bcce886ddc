import Malachite.Lib.Span

/-! The two range computations of value sync (`handle.rs`): cutting one height out of
a list of requested ranges (`excise_height`), and the earliest window of heights that
no requested range holds (`compute_free_window`).  Heights are natural numbers and a
`RangeInclusive` of heights is a `Span`.

Excising puts pieces of the range it cuts in that range's place, so the list shrinks
(`exciseHeight_shrinks`).  A window found by `computeFreeWindow` starts above the
exclusive start, ends at the cap at the latest, has at most the window size of
heights and shares no height with any range (`computeFreeWindow_spec`).
-/

namespace Malachite.Sync

open Span

/-- `Height::decrement` as the generic code calls it: the trait's default, `decrement_by(1)`,
which the heights of the test and Starknet contexts compute with `saturating_sub`, so that it
never fails and takes 0 to 0.  (Their inherent `decrement`, which fails at 0, is not the one
called.) -/
def decrement (height : Nat) : Option Nat :=
  some (height - 1)

/-- The failures of `excise_height`; the source reports them as text naming the height. -/
inductive ExciseError where
  | cannotFindRange (height : Nat)
  | cannotDecrement (height : Nat)
deriving DecidableEq, Repr

/-- `excise_height`: take `height` out of the first range that holds it and push what is
left of that range at the end.  The range is removed before a failure to decrement would be
reported, and stays removed; with a saturating `decrement` that failure never comes.  The source removes the range at the position it found;
erasing the first range equal to it removes the same one, since an earlier equal range
would have been found first. -/
def exciseHeight (ranges : List Span) (height : Nat) : List Span × Except ExciseError Unit :=
  match ranges.find? (·.contains height) with
  | none => (ranges, .error (.cannotFindRange height))
  | some range =>
      let ranges := ranges.erase range
      if range.start ≠ range.stop then
        if range.start = height then (ranges ++ [⟨range.start + 1, range.stop⟩], .ok ())
        else if range.stop = height then
          match decrement range.stop with
          | none => (ranges, .error (.cannotDecrement range.stop))
          | some newEnd => (ranges ++ [⟨range.start, newEnd⟩], .ok ())
        else
          match decrement height with
          | none => (ranges, .error (.cannotDecrement height))
          | some newEnd => (ranges ++ [⟨range.start, newEnd⟩, ⟨height + 1, range.stop⟩], .ok ())
      else (ranges, .ok ())

example : (exciseHeight [⟨1, 3⟩, ⟨5, 7⟩, ⟨9, 11⟩] 6).1 = [⟨1, 3⟩, ⟨9, 11⟩, ⟨5, 5⟩, ⟨7, 7⟩] := by
  decide

/-- What excising does to the list: nothing, or pieces of a range that held the height
in that range's place. -/
theorem exciseHeight_spec (ranges : List Span) (height : Nat) :
    (exciseHeight ranges height).1 = ranges ∨
      ∃ range ∈ ranges, ∃ pieces, Refines pieces range ∧
        (exciseHeight ranges height).1 = ranges.erase range ++ pieces := by
  cases found : ranges.find? (·.contains height) with
  | none => simp [exciseHeight, found]
  | some range =>
      right
      have member := List.mem_of_find?_eq_some found
      have held : range.start ≤ height ∧ height ≤ range.stop := by
        simpa using List.find?_some found
      refine ⟨range, member, ?_⟩
      simp only [exciseHeight, found]
      split
      · next differ =>
        split
        · -- the height is the range's start: the rest of the range stays
          next atStart =>
          exact ⟨[⟨range.start + 1, range.stop⟩],
            refines_single (by dsimp only; omega) (by dsimp only; omega) le_rfl, rfl⟩
        · split
          · next atStop =>
            cases stop : range.stop with
            | zero => omega
            | succ newEnd =>
                exact ⟨[⟨range.start, newEnd⟩], refines_single (by dsimp only; omega) le_rfl
                  (by dsimp only; omega), by simp [decrement]⟩
          · next notStart notStop =>
            cases below : height with
            | zero => omega
            | succ newEnd =>
                refine ⟨[⟨range.start, newEnd⟩, ⟨height + 1, range.stop⟩],
                  refines_pair (by dsimp only; omega) (by dsimp only; omega) le_rfl
                    (by dsimp only; omega) le_rfl, ?_⟩
                simp [decrement, below]
      · exact ⟨[], refines_nil range, by simp⟩

theorem exciseHeight_shrinks (ranges : List Span) (height : Nat) :
    Shrinks (exciseHeight ranges height).1 ranges := by
  rcases exciseHeight_spec ranges height with same | ⟨range, member, pieces, refines, cut⟩
  · rw [same]
    exact Shrinks.refl ranges
  · rw [cut]
    exact Shrinks.erase_append member refines

/-! ### The free window -/

/-- The order `compute_free_window` sorts the ranges in: by start, then by end. -/
def rangeLe (first second : Span) : Bool :=
  decide (first.start < second.start) ||
    (decide (first.start = second.start) && decide (first.stop ≤ second.stop))

/-- The first loop of `compute_free_window`: walking the sorted ranges, move `a` past
every range that holds it; `none` once `a` passes the cap. -/
def skipCovered (inclusiveUpToHeight a : Nat) : List Span → Option Nat
  | [] => some a
  | range :: rest =>
      if a < range.start then some a
      else if a ≤ range.stop then
        if inclusiveUpToHeight < range.stop + 1 then none
        else skipCovered inclusiveUpToHeight (range.stop + 1) rest
      else skipCovered inclusiveUpToHeight a rest

/-- The second loop: move the end `b` up one height at a time, at most
`remainingIncrements` times, stopping before the cap is passed or the next range is
reached. -/
def extendWindow (inclusiveUpToHeight : Nat) (nextRangeStart : Option Nat) :
    Nat → Nat → Nat
  | 0, b => b
  | remainingIncrements + 1, b =>
      let next := b + 1
      if inclusiveUpToHeight < next then b
      else if nextRangeStart.any (· ≤ next) then b
      else extendWindow inclusiveUpToHeight nextRangeStart remainingIncrements next

/-- `compute_free_window`.  A window size of `n + 1` allows `n` increments of the end. -/
def computeFreeWindow (exclusiveStartHeight inclusiveUpToHeight windowSize : Nat)
    (ranges : List Span) : Option Span :=
  match windowSize with
  | 0 => none
  | remainingIncrements + 1 =>
      let ranges := ranges.mergeSort rangeLe
      let a := exclusiveStartHeight + 1
      if inclusiveUpToHeight < a then none
      else
        match skipCovered inclusiveUpToHeight a ranges with
        | none => none
        | some a =>
            let nextRangeStart := (ranges.find? fun range => decide (a ≤ range.start)).map (·.start)
            some ⟨a, extendWindow inclusiveUpToHeight nextRangeStart remainingIncrements a⟩

section Sorted

variable {ranges : List Span}

/-- Ranges in the order of their starts. -/
def SortedByStart (ranges : List Span) : Prop :=
  ranges.Pairwise fun first second => first.start ≤ second.start

theorem sortedByStart_mergeSort (ranges : List Span) :
    SortedByStart (ranges.mergeSort rangeLe) := by
  have sorted := @List.pairwise_mergeSort _ rangeLe
    (fun first second third firstLe secondLe => by
      simp only [rangeLe, Bool.or_eq_true, Bool.and_eq_true, decide_eq_true_eq] at firstLe secondLe ⊢
      omega)
    (fun first second => by
      simp only [rangeLe, Bool.or_eq_true, Bool.and_eq_true, decide_eq_true_eq]
      omega)
    ranges
  refine sorted.imp fun {first second} ordered => ?_
  simp only [rangeLe, Bool.or_eq_true, Bool.and_eq_true, decide_eq_true_eq] at ordered
  omega

/-- The first loop stops at a height no range holds, not below where it started and not
above the cap. -/
theorem skipCovered_spec {upTo a found : Nat} (sorted : SortedByStart ranges)
    (skipped : skipCovered upTo a ranges = some found) :
    a ≤ found ∧ (a ≤ upTo → found ≤ upTo) ∧ ∀ range ∈ ranges, range.contains found = false := by
  induction ranges generalizing a with
  | nil =>
      simp only [skipCovered, Option.some.injEq] at skipped
      subst skipped
      simp
  | cons range rest ih =>
      obtain ⟨later, restSorted⟩ := List.pairwise_cons.mp sorted
      simp only [skipCovered] at skipped
      split at skipped
      · -- `a` lies before this range and so before every later one
        next before =>
        cases skipped
        refine ⟨le_rfl, id, fun other member => ?_⟩
        rcases List.mem_cons.mp member with rfl | member
        · simp [contains]; omega
        · have := later other member
          simp [contains]; omega
      · split at skipped
        · -- `a` is in this range: continue after its end
          next notBefore inside =>
          split at skipped
          · cases skipped
          · next capped =>
            obtain ⟨above, bounded, free⟩ := ih restSorted skipped
            refine ⟨by omega, fun _ => bounded (by omega), fun other member => ?_⟩
            rcases List.mem_cons.mp member with rfl | member
            · simp [contains]; omega
            · exact free other member
        · next notBefore outside =>
          obtain ⟨above, bounded, free⟩ := ih restSorted skipped
          refine ⟨above, bounded, fun other member => ?_⟩
          rcases List.mem_cons.mp member with rfl | member
          · simp [contains]; omega
          · exact free other member

/-- The first range starting at `a` or later starts no later than any other such range. -/
theorem start_le_of_find? {a : Nat} {first : Span} (sorted : SortedByStart ranges)
    (found : ranges.find? (fun range => decide (a ≤ range.start)) = some first) :
    ∀ range ∈ ranges, a ≤ range.start → first.start ≤ range.start := by
  induction ranges with
  | nil => simp at found
  | cons head rest ih =>
      intro range member above
      obtain ⟨later, restSorted⟩ := List.pairwise_cons.mp sorted
      by_cases headAbove : a ≤ head.start
      · simp only [List.find?_cons, headAbove, decide_true, Option.some.injEq] at found
        subst found
        rcases List.mem_cons.mp member with rfl | member
        · exact le_rfl
        · exact later range member
      · simp only [List.find?_cons, headAbove, decide_false] at found
        rcases List.mem_cons.mp member with rfl | member
        · exact absurd above headAbove
        · exact ih restSorted found range member above

end Sorted

/-- The second loop moves the end up by at most its increments, never past the cap, and
either not at all or to below the next range. -/
theorem extendWindow_spec (upTo : Nat) (nextRangeStart : Option Nat) (increments b : Nat) :
    b ≤ extendWindow upTo nextRangeStart increments b ∧
      extendWindow upTo nextRangeStart increments b ≤ b + increments ∧
      (b ≤ upTo → extendWindow upTo nextRangeStart increments b ≤ upTo) ∧
      (extendWindow upTo nextRangeStart increments b = b ∨
        ∀ start, nextRangeStart = some start → extendWindow upTo nextRangeStart increments b < start) := by
  induction increments generalizing b with
  | zero => simp [extendWindow]
  | succ increments ih =>
      simp only [extendWindow]
      split
      · simp
      · split
        · simp
        · -- one more increment: the new end is below the cap and below the next range
          next capped blocked =>
          obtain ⟨grown, bounded, belowCap, stayed⟩ := ih (b + 1)
          refine ⟨by omega, by omega, fun _ => belowCap (by omega), Or.inr fun start next => ?_⟩
          rcases stayed with same | below
          · subst next
            simp only [Option.any_some, decide_eq_true_eq] at blocked
            omega
          · exact below start next

/-- A window that `compute_free_window` can return. -/
structure FreeWindow (exclusiveStartHeight inclusiveUpToHeight windowSize : Nat)
    (ranges : List Span) (window : Span) : Prop where
  above : exclusiveStartHeight < window.start
  nonempty : window.start ≤ window.stop
  capped : window.stop ≤ inclusiveUpToHeight
  sized : window.count ≤ windowSize
  free : ∀ range ∈ ranges, Apart window range

/-- A window that `computeFreeWindow` returns is free. -/
theorem computeFreeWindow_spec {exclusiveStartHeight inclusiveUpToHeight windowSize : Nat}
    {ranges : List Span} {window : Span}
    (computed : computeFreeWindow exclusiveStartHeight inclusiveUpToHeight windowSize ranges =
      some window) :
    FreeWindow exclusiveStartHeight inclusiveUpToHeight windowSize ranges window := by
  cases windowSize with
  | zero => simp [computeFreeWindow] at computed
  | succ increments =>
      have sorted := sortedByStart_mergeSort ranges
      have sameRanges := List.mergeSort_perm ranges rangeLe
      simp only [computeFreeWindow] at computed
      split at computed
      · cases computed
      · next startCapped =>
        split at computed
        · cases computed
        · next a skipped =>
          cases computed
          obtain ⟨aboveStart, aCapped, aFree⟩ := skipCovered_spec sorted skipped
          obtain ⟨grown, bounded, belowCap, stayed⟩ :=
            extendWindow_spec inclusiveUpToHeight
              ((ranges.mergeSort rangeLe |>.find? fun range => decide (a ≤ range.start)).map (·.start))
              increments a
          refine ⟨by dsimp only; omega, grown, belowCap (aCapped (by omega)),
            by simp only [count]; omega, ?_⟩
          intro range member point held
          have sortedMember := sameRanges.mem_iff.mpr member
          simp only [contains_iff] at held
          -- the window's start is free; a later height lies below the next range
          by_cases atStart : point = a
          · subst atStart
            exact aFree range sortedMember
          rcases stayed with same | belowNext
          · omega
          · have notA := aFree range sortedMember
            simp only [contains, Bool.and_eq_false_iff, decide_eq_false_iff_not] at notA ⊢
            rcases notA with after | before
            · cases found : (ranges.mergeSort rangeLe).find? (fun range => decide (a ≤ range.start)) with
              | none =>
                  have := List.find?_eq_none.mp found range sortedMember
                  simp only [decide_eq_true_eq] at this
                  omega
              | some first =>
                  have firstBelow := belowNext first.start (by simp [found])
                  have := start_le_of_find? sorted found range sortedMember (by omega)
                  omega
            · omega

example : computeFreeWindow 0 100 10 [⟨9, 20⟩, ⟨1, 3⟩] = some ⟨4, 8⟩ := by
  simp [computeFreeWindow, List.mergeSort, skipCovered, extendWindow, rangeLe]

/-! ### The earliest window, as long as it can be -/

/-- A height that no range holds. -/
def Uncovered (ranges : List Span) (point : Nat) : Prop :=
  ∀ range ∈ ranges, range.contains point = false

instance (ranges : List Span) : DecidablePred (Uncovered ranges) :=
  fun _ => inferInstanceAs (Decidable (∀ range ∈ ranges, _))

theorem not_uncovered {ranges : List Span} {range : Span} {point : Nat} (member : range ∈ ranges)
    (held : range.contains point = true) : ¬ Uncovered ranges point :=
  fun free => by simp [free range member] at held

theorem Uncovered.tail {range : Span} {rest : List Span} {point : Nat}
    (free : Uncovered (range :: rest) point) : Uncovered rest point :=
  fun other member => free other (List.mem_cons_of_mem range member)

/-- Sorting the ranges changes nothing of which heights they hold. -/
theorem uncovered_mergeSort {ranges : List Span} {point : Nat} :
    Uncovered (ranges.mergeSort rangeLe) point ↔ Uncovered ranges point := by
  simp only [Uncovered, (List.mergeSort_perm ranges rangeLe).mem_iff]

/-- Every height the first loop moves `a` past is held by a range. -/
theorem skipCovered_covered {ranges : List Span} {upTo a found : Nat}
    (skipped : skipCovered upTo a ranges = some found) :
    ∀ point, a ≤ point → point < found → ¬ Uncovered ranges point := by
  induction ranges generalizing a with
  | nil =>
      simp only [skipCovered, Option.some.injEq] at skipped
      omega
  | cons range rest ih =>
      intro point atLeast below
      simp only [skipCovered] at skipped
      split at skipped
      · cases skipped
        omega
      · next notBefore =>
        split at skipped
        · next inside =>
          split at skipped
          · cases skipped
          · by_cases inRange : point ≤ range.stop
            · exact not_uncovered List.mem_cons_self (by simp; omega)
            · exact fun free => ih skipped point (by omega) below free.tail
        · exact fun free => ih skipped point atLeast below free.tail

/-- When the first loop passes the cap, every height from `a` to the cap is held. -/
theorem skipCovered_eq_none {ranges : List Span} {upTo a : Nat}
    (skipped : skipCovered upTo a ranges = none) :
    ∀ point, a ≤ point → point ≤ upTo → ¬ Uncovered ranges point := by
  induction ranges generalizing a with
  | nil => simp [skipCovered] at skipped
  | cons range rest ih =>
      intro point atLeast capped
      simp only [skipCovered] at skipped
      split at skipped
      · cases skipped
      · next notBefore =>
        split at skipped
        · next inside =>
          by_cases inRange : point ≤ range.stop
          · exact not_uncovered List.mem_cons_self (by simp; omega)
          · split at skipped
            · omega
            · exact fun free => ih skipped point (by omega) capped free.tail
        · exact fun free => ih skipped point atLeast capped free.tail

/-- Why the second loop stops: it used every increment, or reached the cap, or the next
range starts right after the end. -/
theorem extendWindow_stops (upTo : Nat) (nextRangeStart : Option Nat) (increments b : Nat) :
    extendWindow upTo nextRangeStart increments b = b + increments ∨
      upTo ≤ extendWindow upTo nextRangeStart increments b ∨
      ∃ start, nextRangeStart = some start ∧
        start ≤ extendWindow upTo nextRangeStart increments b + 1 := by
  induction increments generalizing b with
  | zero => simp [extendWindow]
  | succ increments ih =>
      simp only [extendWindow]
      split
      · next capped => exact .inr (.inl (by omega))
      · split
        · next blocked =>
          cases next : nextRangeStart with
          | none => simp [next] at blocked
          | some start =>
              simp only [next, Option.any_some, decide_eq_true_eq] at blocked
              exact .inr (.inr ⟨start, rfl, by omega⟩)
        · rcases ih (b + 1) with used | capped | blocked
          · exact .inl (by omega)
          · exact .inr (.inl capped)
          · exact .inr (.inr blocked)

/-- What `compute_free_window` computes when it finds a window: the first loop's height
from just above the start, and the second loop's end from there. -/
theorem computeFreeWindow_eq_some {exclusiveStartHeight inclusiveUpToHeight windowSize : Nat}
    {ranges : List Span} {window : Span}
    (computed : computeFreeWindow exclusiveStartHeight inclusiveUpToHeight windowSize ranges =
      some window) :
    ∃ increments, windowSize = increments + 1 ∧
      skipCovered inclusiveUpToHeight (exclusiveStartHeight + 1) (ranges.mergeSort rangeLe) =
        some window.start ∧
      window.stop = extendWindow inclusiveUpToHeight
        (((ranges.mergeSort rangeLe).find? fun range => decide (window.start ≤ range.start)).map
          (·.start)) increments window.start := by
  cases windowSize with
  | zero => simp [computeFreeWindow] at computed
  | succ increments =>
      simp only [computeFreeWindow] at computed
      split at computed
      · cases computed
      · split at computed
        · cases computed
        · next a skipped =>
          cases computed
          exact ⟨increments, rfl, skipped, rfl⟩

/-- No height between the start and the window is free. -/
theorem computeFreeWindow_least {exclusiveStartHeight inclusiveUpToHeight windowSize : Nat}
    {ranges : List Span} {window : Span}
    (computed : computeFreeWindow exclusiveStartHeight inclusiveUpToHeight windowSize ranges =
      some window) :
    ∀ point, exclusiveStartHeight < point → point < window.start → ¬ Uncovered ranges point := by
  obtain ⟨_, -, skipped, -⟩ := computeFreeWindow_eq_some computed
  intro point above below free
  exact skipCovered_covered skipped point above below (uncovered_mergeSort.mpr free)

/-- Over nonempty ranges the window's end is as far as it can go: past it lies the cap,
the window size or a height some range holds. -/
theorem computeFreeWindow_maximal {exclusiveStartHeight inclusiveUpToHeight windowSize : Nat}
    {ranges : List Span} {window : Span}
    (nonempty : ∀ range ∈ ranges, range.start ≤ range.stop)
    (computed : computeFreeWindow exclusiveStartHeight inclusiveUpToHeight windowSize ranges =
      some window) (stop : Nat)
    (free : ∀ point, window.start ≤ point → point ≤ stop → Uncovered ranges point)
    (capped : stop ≤ inclusiveUpToHeight) (sized : stop - window.start + 1 ≤ windowSize) :
    stop ≤ window.stop := by
  obtain ⟨increments, rfl, -, extended⟩ := computeFreeWindow_eq_some computed
  have stops := extendWindow_stops inclusiveUpToHeight
    (((ranges.mergeSort rangeLe).find? fun range => decide (window.start ≤ range.start)).map
      (·.start)) increments window.start
  rw [← extended] at stops
  rcases stops with used | reached | ⟨start, next, blocked⟩
  · omega
  · omega
  · -- the next range starts at a height it holds, which the free heights cannot reach
    obtain ⟨first, found, rfl⟩ := Option.map_eq_some_iff.mp next
    have member := (List.mergeSort_perm ranges rangeLe).mem_iff.mp (List.mem_of_find?_eq_some found)
    have after : window.start ≤ first.start := by simpa using List.find?_some found
    by_contra beyond
    have held : first.contains first.start = true := by
      simp [nonempty first member]
    exact not_uncovered member held (free first.start after (by omega))

/-- `compute_free_window` finds nothing exactly when the window size is zero or every height
above the start, up to the cap, is held by a range. -/
theorem computeFreeWindow_eq_none_iff {exclusiveStartHeight inclusiveUpToHeight windowSize : Nat}
    {ranges : List Span} :
    computeFreeWindow exclusiveStartHeight inclusiveUpToHeight windowSize ranges = none ↔
      windowSize = 0 ∨ ∀ point, exclusiveStartHeight < point → point ≤ inclusiveUpToHeight →
        ¬ Uncovered ranges point := by
  constructor
  · intro computed
    cases windowSize with
    | zero => exact .inl rfl
    | succ increments =>
        refine .inr fun point above capped free => ?_
        simp only [computeFreeWindow] at computed
        split at computed
        · omega
        · split at computed
          · next skipped =>
            exact skipCovered_eq_none skipped point above capped (uncovered_mergeSort.mpr free)
          · cases computed
  · rintro (zero | covered)
    · subst zero
      rfl
    · -- a window would start at a free height below the cap
      cases computed : computeFreeWindow exclusiveStartHeight inclusiveUpToHeight windowSize ranges with
      | none => rfl
      | some window =>
          have spec := computeFreeWindow_spec computed
          refine absurd (fun range member => ?_) (covered window.start spec.above
            (le_trans spec.nonempty spec.capped))
          exact spec.free range member window.start (by simp [spec.nonempty])

theorem computeFreeWindow_earliest (exclusiveStartHeight inclusiveUpToHeight windowSize : Nat)
    (ranges : List Span) (nonempty : ∀ range ∈ ranges, range.start ≤ range.stop) :
    (computeFreeWindow exclusiveStartHeight inclusiveUpToHeight windowSize ranges = none ↔
      windowSize = 0 ∨ ∀ point, exclusiveStartHeight < point → point ≤ inclusiveUpToHeight →
        ¬ Uncovered ranges point) ∧
    ∀ window, computeFreeWindow exclusiveStartHeight inclusiveUpToHeight windowSize ranges =
        some window →
      (exclusiveStartHeight < window.start ∧ Uncovered ranges window.start ∧
        ∀ point, exclusiveStartHeight < point → point < window.start → ¬ Uncovered ranges point) ∧
      (∀ point, window.start ≤ point → point ≤ window.stop → Uncovered ranges point) ∧
      window.start ≤ window.stop ∧ window.stop ≤ inclusiveUpToHeight ∧
      window.stop - window.start + 1 ≤ windowSize ∧
      ∀ stop, (∀ point, window.start ≤ point → point ≤ stop → Uncovered ranges point) →
        stop ≤ inclusiveUpToHeight → stop - window.start + 1 ≤ windowSize → stop ≤ window.stop := by
  refine ⟨computeFreeWindow_eq_none_iff, fun window computed => ?_⟩
  have spec := computeFreeWindow_spec computed
  -- the window's heights are free: a range that held one would meet the window
  have free : ∀ point, window.start ≤ point → point ≤ window.stop → Uncovered ranges point :=
    fun point atLeast atMost range member => spec.free range member point (by simp [atLeast, atMost])
  exact ⟨⟨spec.above, free window.start le_rfl spec.nonempty, computeFreeWindow_least computed⟩,
    free, spec.nonempty, spec.capped, spec.sized, computeFreeWindow_maximal nonempty computed⟩

/-- Two ranges ahead of the tip: the window starts after the first and stops before the
second. -/
theorem computeFreeWindow_earliest_between :
    (∀ range ∈ [(⟨9, 20⟩ : Span), ⟨1, 3⟩], range.start ≤ range.stop) ∧
      computeFreeWindow 0 100 10 [⟨9, 20⟩, ⟨1, 3⟩] = some ⟨4, 8⟩ ∧
      ∀ stop, (∀ point, 4 ≤ point → point ≤ stop → Uncovered [⟨9, 20⟩, ⟨1, 3⟩] point) →
        stop ≤ 100 → stop - 4 + 1 ≤ 10 → stop ≤ 8 := by
  have nonempty : ∀ range ∈ [(⟨9, 20⟩ : Span), ⟨1, 3⟩], range.start ≤ range.stop := by decide
  have computed : computeFreeWindow 0 100 10 [⟨9, 20⟩, ⟨1, 3⟩] = some ⟨4, 8⟩ := by
    simp [computeFreeWindow, List.mergeSort, skipCovered, extendWindow, rangeLe]
  exact ⟨nonempty, computed,
    ((computeFreeWindow_earliest 0 100 10 _ nonempty).2 _ computed).2.2.2.2.2⟩

end Malachite.Sync

/-! ### Excising takes exactly one height out -/

namespace Malachite.Sync

open Span

theorem uncovered_append {first second : List Span} {point : Nat} :
    Uncovered (first ++ second) point ↔ Uncovered first point ∧ Uncovered second point := by
  simp only [Uncovered, List.forall_mem_append]

/-- Taking one range out of the list: the point is uncovered when that range and the others
leave it so. -/
theorem uncovered_erase {ranges : List Span} {range : Span} {point : Nat} (member : range ∈ ranges) :
    Uncovered ranges point ↔ range.contains point = false ∧ Uncovered (ranges.erase range) point := by
  simp only [Uncovered, (List.perm_cons_erase member).mem_iff, List.forall_mem_cons]

/-- The pieces excising puts in place of the range that holds the height are the rest of
that range. -/
theorem exciseHeight_of_find? {ranges : List Span} {height : Nat} {range : Span}
    (found : ranges.find? (·.contains height) = some range) (nonempty : range.start ≤ range.stop) :
    ∃ pieces, (∀ point, Uncovered pieces point ↔ range.contains point = false ∨ point = height) ∧
      exciseHeight ranges height = (ranges.erase range ++ pieces, .ok ()) := by
  have held : range.start ≤ height ∧ height ≤ range.stop := by
    simpa using List.find?_some found
  simp only [exciseHeight, found]
  split
  · next differ =>
    split
    · next atStart =>
      refine ⟨[⟨range.start + 1, range.stop⟩], fun point => ?_, rfl⟩
      simp [Uncovered, contains]
      omega
    · split
      · next notStart atStop =>
        cases stop : range.stop with
        | zero => omega
        | succ newEnd =>
            refine ⟨[⟨range.start, newEnd⟩], fun point => ?_, by simp [decrement]⟩
            simp [Uncovered, contains]
            omega
      · next notStart notStop =>
        cases below : height with
        | zero => omega
        | succ newEnd =>
            refine ⟨[⟨range.start, newEnd⟩, ⟨height + 1, range.stop⟩], fun point => ?_,
              by simp [decrement, below]⟩
            simp [Uncovered, contains]
            omega
  · -- a range of one height goes, and nothing takes its place
    next same =>
    refine ⟨[], fun point => ?_, by simp⟩
    simp [Uncovered, contains]
    omega

theorem excise_height_removes_one (ranges : List Span) (height : Nat)
    (nonempty : ∀ range ∈ ranges, range.start ≤ range.stop) (disjoint : ranges.Pairwise Apart) :
    ((exciseHeight ranges height).2 = .ok () ↔ ∃ range ∈ ranges, range.contains height = true) ∧
      ((exciseHeight ranges height).2 = .ok () →
        (∀ range ∈ (exciseHeight ranges height).1, range.start ≤ range.stop) ∧
        (exciseHeight ranges height).1.Pairwise Apart ∧
        ∀ point, Uncovered (exciseHeight ranges height).1 point ↔
          Uncovered ranges point ∨ point = height) ∧
      ∀ error, (exciseHeight ranges height).2 = .error error →
        (exciseHeight ranges height).1 = ranges := by
  -- excising shrinks the list, so what it leaves is separated as the list was
  have kept : Separated (exciseHeight ranges height).1 :=
    (Separated.of_pairwise nonempty disjoint).of_shrinks (exciseHeight_shrinks ranges height)
  cases found : ranges.find? (·.contains height) with
  | none =>
      have missing : ∀ range ∈ ranges, range.contains height = false := fun range member =>
        Bool.eq_false_iff.mpr (List.find?_eq_none.mp found range member)
      have refused : exciseHeight ranges height = (ranges, .error (.cannotFindRange height)) := by
        simp [exciseHeight, found]
      rw [refused]
      refine ⟨Iff.intro (fun accepted => by simp at accepted) (fun holding => ?_),
        fun accepted => by simp at accepted, fun _ _ => rfl⟩
      obtain ⟨range, member, held⟩ := holding
      rw [missing range member] at held
      cases held
  | some range =>
      have member := List.mem_of_find?_eq_some found
      have held : range.contains height = true := by
        have selected := List.find?_some found
        exact selected
      obtain ⟨pieces, rest, excised⟩ := exciseHeight_of_find? found (nonempty range member)
      -- the other ranges are apart from the one that held the height
      have others : ∀ other ∈ ranges.erase range, Apart range other :=
        (List.pairwise_cons.mp (((List.perm_cons_erase member).pairwise_iff
          fun apart => Apart.symm apart).mp disjoint)).1
      rw [excised] at kept ⊢
      refine ⟨iff_of_true rfl ⟨range, member, held⟩, fun _ => ⟨kept.nonempty, kept.pairwise,
        fun point => ?_⟩, fun _ failed => by simp at failed⟩
      rw [uncovered_append, rest point, uncovered_erase member]
      constructor
      · rintro ⟨erasedFree, outside | rfl⟩
        · exact .inl ⟨outside, erasedFree⟩
        · exact .inr rfl
      · rintro (⟨outside, erasedFree⟩ | rfl)
        · exact ⟨erasedFree, .inl outside⟩
        · exact ⟨fun other otherMember => others other otherMember point held, .inr rfl⟩

/-- Three ranges and the middle height of the second: it is cut in two. -/
theorem excise_height_removes_one_middle :
    (∀ range ∈ [(⟨1, 3⟩ : Span), ⟨5, 7⟩, ⟨9, 11⟩], range.start ≤ range.stop) ∧
      [(⟨1, 3⟩ : Span), ⟨5, 7⟩, ⟨9, 11⟩].Pairwise Apart ∧
      exciseHeight [⟨1, 3⟩, ⟨5, 7⟩, ⟨9, 11⟩] 6 = ([⟨1, 3⟩, ⟨9, 11⟩, ⟨5, 5⟩, ⟨7, 7⟩], .ok ()) ∧
      ∀ point, Uncovered [⟨1, 3⟩, ⟨9, 11⟩, ⟨5, 5⟩, ⟨7, 7⟩] point ↔
        Uncovered [⟨1, 3⟩, ⟨5, 7⟩, ⟨9, 11⟩] point ∨ point = 6 := by
  have nonempty : ∀ range ∈ [(⟨1, 3⟩ : Span), ⟨5, 7⟩, ⟨9, 11⟩], range.start ≤ range.stop := by
    decide
  have ordered : [(⟨1, 3⟩ : Span), ⟨5, 7⟩, ⟨9, 11⟩].Pairwise fun first second =>
      first.stop < second.start := by
    decide
  have disjoint : [(⟨1, 3⟩ : Span), ⟨5, 7⟩, ⟨9, 11⟩].Pairwise Apart :=
    ordered.imp apart_of_stop_lt
  have excised : exciseHeight [⟨1, 3⟩, ⟨5, 7⟩, ⟨9, 11⟩] 6 =
      ([⟨1, 3⟩, ⟨9, 11⟩, ⟨5, 5⟩, ⟨7, 7⟩], .ok ()) := by
    decide
  have removed := (excise_height_removes_one _ 6 nonempty disjoint).2.1 (by rw [excised])
  rw [excised] at removed
  exact ⟨nonempty, disjoint, excised, removed.2.2⟩

end Malachite.Sync
