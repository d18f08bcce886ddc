import Mathlib

/-! Inclusive spans of natural numbers, and lists of spans that hold no point twice.

A span `⟨start, stop⟩` holds the points from `start` to `stop`, both included.  A
list of spans is `Separated` when each span is nonempty and no point lies in two of
them.  A change of such a list is measured by three weights of a span: whether it
holds a given point, whether it is empty, and how many points it holds.  A change
that `Shrinks` the list in all three keeps it separated and does not raise its
number of points.  Dropping spans shrinks, and so does putting pieces of a span in
its place (`Refines`); adding a span that meets none of the others keeps the list
separated and adds its points.
-/

structure Span where
  start : Nat
  stop : Nat
deriving DecidableEq, Repr

namespace Span

/-- Whether the span holds a point. -/
def contains (span : Span) (point : Nat) : Bool :=
  decide (span.start ≤ point) && decide (point ≤ span.stop)

/-- Whether the span holds no point. -/
def isEmpty (span : Span) : Bool := decide (span.stop < span.start)

/-- The number of points of a nonempty span. -/
def count (span : Span) : Nat := span.stop - span.start + 1

@[simp] theorem contains_iff {span : Span} {point : Nat} :
    span.contains point = true ↔ span.start ≤ point ∧ point ≤ span.stop := by
  simp [contains]

@[simp] theorem isEmpty_iff {span : Span} : span.isEmpty = true ↔ span.stop < span.start := by
  simp [isEmpty]

/-- No point lies in both spans. -/
def Apart (first second : Span) : Prop :=
  ∀ point, first.contains point = true → second.contains point = false

theorem Apart.symm {first second : Span} (apart : Apart first second) : Apart second first := by
  intro point held
  cases other : first.contains point
  · rfl
  · simp [apart point other] at held

/-- A span that ends before another starts is apart from it. -/
theorem apart_of_stop_lt {first second : Span} (before : first.stop < second.start) :
    Apart first second := by
  intro point held
  simp only [contains_iff] at held
  simp only [contains, Bool.and_eq_false_iff, decide_eq_false_iff_not]
  omega

/-! ### Weights of a list of spans -/

/-- The sum of a weight over a list of spans. -/
def weigh (weight : Span → Nat) (spans : List Span) : Nat := (spans.map weight).sum

@[simp] theorem weigh_nil (weight : Span → Nat) : weigh weight [] = 0 := rfl

@[simp] theorem weigh_cons (weight : Span → Nat) (span : Span) (spans : List Span) :
    weigh weight (span :: spans) = weight span + weigh weight spans := by
  simp [weigh]

@[simp] theorem weigh_append (weight : Span → Nat) (first second : List Span) :
    weigh weight (first ++ second) = weigh weight first + weigh weight second := by
  simp [weigh]

theorem weigh_le_of_sublist (weight : Span → Nat) {later earlier : List Span}
    (sublist : later.Sublist earlier) : weigh weight later ≤ weigh weight earlier := by
  induction sublist with
  | slnil => simp
  | cons span _ ih => simp only [weigh_cons]; omega
  | cons_cons span _ ih => simp only [weigh_cons]; omega

theorem weigh_flatMap {α : Type} (weight : Span → Nat) (items : List α) (spans : α → List Span) :
    weigh weight (items.flatMap spans) = (items.map fun item => weigh weight (spans item)).sum := by
  induction items with
  | nil => simp
  | cons item rest ih => simp [List.flatMap_cons, ih]

theorem weigh_erase (weight : Span → Nat) {spans : List Span} {span : Span} (member : span ∈ spans) :
    weigh weight (spans.erase span) + weight span = weigh weight spans := by
  have moved := ((List.perm_cons_erase member).map weight).sum_eq
  simp only [List.map_cons, List.sum_cons] at moved
  simp only [weigh, moved]
  omega

/-- One for a span that holds the point. -/
def holding (point : Nat) (span : Span) : Nat := if span.contains point then 1 else 0

/-- One for an empty span. -/
def emptiness (span : Span) : Nat := if span.isEmpty then 1 else 0

theorem weigh_holding_eq_zero {point : Nat} {spans : List Span} :
    weigh (holding point) spans = 0 ↔ ∀ span ∈ spans, span.contains point = false := by
  induction spans with
  | nil => simp
  | cons span rest ih =>
      simp only [weigh_cons, List.mem_cons, forall_eq_or_imp, ← ih]
      cases held : span.contains point <;> simp [holding, held]

theorem weigh_emptiness_eq_zero {spans : List Span} :
    weigh emptiness spans = 0 ↔ ∀ span ∈ spans, span.start ≤ span.stop := by
  induction spans with
  | nil => simp
  | cons span rest ih =>
      simp only [weigh_cons, List.mem_cons, forall_eq_or_imp, ← ih]
      by_cases empty : span.stop < span.start
      · simp [emptiness, isEmpty, empty]
      · simp [emptiness, isEmpty, empty]
        omega

/-! ### Separated lists and the changes that keep them separated -/

/-- Nonempty spans, no point held twice. -/
structure Separated (spans : List Span) : Prop where
  nonempty : ∀ span ∈ spans, span.start ≤ span.stop
  single : ∀ point, weigh (holding point) spans ≤ 1

theorem separated_nil : Separated [] := ⟨by simp, by simp⟩

/-- In a separated list any two spans are apart. -/
theorem Separated.pairwise {spans : List Span} (separated : Separated spans) :
    spans.Pairwise Apart := by
  induction spans with
  | nil => exact List.Pairwise.nil
  | cons span rest ih =>
      have restSeparated : Separated rest :=
        ⟨fun other member => separated.nonempty other (List.mem_cons_of_mem span member),
          fun point => by have := separated.single point; simp only [weigh_cons] at this; omega⟩
      refine List.pairwise_cons.mpr ⟨fun other member point held => ?_, ih restSeparated⟩
      -- the point is held by `span`, so the rest holds it nowhere
      have single := separated.single point
      simp only [weigh_cons, holding, held, if_true] at single
      have none : weigh (holding point) rest = 0 := by omega
      exact weigh_holding_eq_zero.mp none other member

/-- Nonempty spans that are pairwise apart are separated. -/
theorem Separated.of_pairwise {spans : List Span} (nonempty : ∀ span ∈ spans, span.start ≤ span.stop)
    (apart : spans.Pairwise Apart) : Separated spans := by
  refine ⟨nonempty, fun point => ?_⟩
  induction spans with
  | nil => simp
  | cons span rest ih =>
      obtain ⟨fromSpan, restApart⟩ := List.pairwise_cons.mp apart
      have restBound := ih (fun other member => nonempty other (List.mem_cons_of_mem span member))
        restApart
      simp only [weigh_cons]
      cases held : span.contains point
      · simpa [holding, held] using restBound
      · -- the rest is apart from `span`, so none of it holds the point
        have none : weigh (holding point) rest = 0 :=
          weigh_holding_eq_zero.mpr fun other member => fromSpan other member point held
        simp [holding, held, none]

/-- The list gets no more spans at any point, no more empty spans and no more points. -/
structure Shrinks (later earlier : List Span) : Prop where
  atPoint : ∀ point, weigh (holding point) later ≤ weigh (holding point) earlier
  empties : weigh emptiness later ≤ weigh emptiness earlier
  points : weigh count later ≤ weigh count earlier

theorem Shrinks.refl (spans : List Span) : Shrinks spans spans :=
  ⟨fun _ => le_rfl, le_rfl, le_rfl⟩

theorem Shrinks.trans {later middle earlier : List Span} (first : Shrinks later middle)
    (second : Shrinks middle earlier) : Shrinks later earlier :=
  ⟨fun point => (first.atPoint point).trans (second.atPoint point),
    first.empties.trans second.empties, first.points.trans second.points⟩

/-- A change that no weight sees grow shrinks. -/
theorem Shrinks.of_weigh_le {later earlier : List Span}
    (lighter : ∀ weight, weigh weight later ≤ weigh weight earlier) : Shrinks later earlier :=
  ⟨fun point => lighter (holding point), lighter emptiness, lighter count⟩

theorem Shrinks.of_sublist {later earlier : List Span} (sublist : later.Sublist earlier) :
    Shrinks later earlier :=
  Shrinks.of_weigh_le fun weight => weigh_le_of_sublist weight sublist

theorem Shrinks.append {later earlier later' earlier' : List Span} (first : Shrinks later earlier)
    (second : Shrinks later' earlier') : Shrinks (later ++ later') (earlier ++ earlier') := by
  refine ⟨fun point => ?_, ?_, ?_⟩
  · have := first.atPoint point
    have := second.atPoint point
    simp only [weigh_append]
    omega
  · have := first.empties
    have := second.empties
    simp only [weigh_append]
    omega
  · have := first.points
    have := second.points
    simp only [weigh_append]
    omega

/-- Shrinking the spans of each item shrinks all of them together. -/
theorem Shrinks.flatMap {α : Type} {items : List α} {later earlier : α → List Span}
    (each : ∀ item ∈ items, Shrinks (later item) (earlier item)) :
    Shrinks (items.flatMap later) (items.flatMap earlier) := by
  induction items with
  | nil => exact Shrinks.refl []
  | cons item rest ih =>
      simp only [List.flatMap_cons]
      exact (each item List.mem_cons_self).append
        (ih fun other member => each other (List.mem_cons_of_mem item member))

theorem Separated.of_shrinks {later earlier : List Span} (separated : Separated earlier)
    (shrinks : Shrinks later earlier) : Separated later := by
  have noEmpty : weigh emptiness earlier = 0 := weigh_emptiness_eq_zero.mpr separated.nonempty
  refine ⟨weigh_emptiness_eq_zero.mp (by have := shrinks.empties; omega), fun point => ?_⟩
  exact (shrinks.atPoint point).trans (separated.single point)

/-- Pieces of a span: separated, inside it, and no more points than it has. -/
structure Refines (pieces : List Span) (span : Span) : Prop where
  separated : Separated pieces
  inside : ∀ piece ∈ pieces, ∀ point, piece.contains point = true → span.contains point = true
  fewer : weigh count pieces ≤ span.count

theorem refines_nil (span : Span) : Refines [] span :=
  ⟨separated_nil, by simp, by simp⟩

/-- One nonempty piece inside a span. -/
theorem refines_single {piece span : Span} (nonempty : piece.start ≤ piece.stop)
    (lower : span.start ≤ piece.start) (upper : piece.stop ≤ span.stop) : Refines [piece] span := by
  refine ⟨⟨by simpa using nonempty, fun point => ?_⟩, ?_, ?_⟩
  · cases held : piece.contains point <;> simp [holding, held]
  · simp only [List.mem_singleton, forall_eq, contains_iff]
    omega
  · simp only [weigh_cons, weigh_nil, count]
    omega

/-- Two nonempty pieces inside a span, the first ending before the second starts. -/
theorem refines_pair {first second span : Span} (firstNonempty : first.start ≤ first.stop)
    (secondNonempty : second.start ≤ second.stop) (lower : span.start ≤ first.start)
    (between : first.stop < second.start) (upper : second.stop ≤ span.stop) :
    Refines [first, second] span := by
  refine ⟨⟨?_, fun point => ?_⟩, ?_, ?_⟩
  · simp only [List.mem_cons, List.not_mem_nil, or_false, forall_eq_or_imp, forall_eq]
    exact ⟨firstNonempty, secondNonempty⟩
  · -- no point lies in both pieces
    by_cases inFirst : first.contains point = true
    · have outSecond : second.contains point = false := apart_of_stop_lt between point inFirst
      simp [holding, inFirst, outSecond]
    · cases inSecond : second.contains point <;> simp [holding, inFirst, inSecond]
  · simp only [List.mem_cons, List.not_mem_nil, or_false, forall_eq_or_imp, forall_eq, contains_iff]
    exact ⟨fun point held => by omega, fun point held => by omega⟩
  · simp only [weigh_cons, weigh_nil, count]
    omega

theorem Refines.holding_le {pieces : List Span} {span : Span} (refines : Refines pieces span)
    (point : Nat) : weigh (holding point) pieces ≤ holding point span := by
  cases held : span.contains point
  · -- a point outside the span is outside every piece
    have none : weigh (holding point) pieces = 0 := by
      refine weigh_holding_eq_zero.mpr fun piece member => ?_
      cases inPiece : piece.contains point
      · rfl
      · simp [refines.inside piece member point inPiece] at held
    simp [none]
  · simpa [holding, held] using refines.separated.single point

/-- Pieces of a span shrink it. -/
theorem Refines.shrinks {pieces : List Span} {span : Span} (refines : Refines pieces span) :
    Shrinks pieces [span] := by
  have noEmpty : weigh emptiness pieces = 0 :=
    weigh_emptiness_eq_zero.mpr refines.separated.nonempty
  refine ⟨fun point => by simpa using refines.holding_le point, by simp [noEmpty], ?_⟩
  simpa using refines.fewer

/-- Changing a part of a list, when the new part shrinks the old one, shrinks the list. -/
theorem Shrinks.of_part {later earlier part replacement : List Span}
    (moved : ∀ weight, weigh weight later + weigh weight part ≤
      weigh weight earlier + weigh weight replacement)
    (shrinks : Shrinks replacement part) : Shrinks later earlier := by
  refine ⟨fun point => ?_, ?_, ?_⟩
  · have := moved (holding point)
    have := shrinks.atPoint point
    omega
  · have := moved emptiness
    have := shrinks.empties
    omega
  · have := moved count
    have := shrinks.points
    omega

/-- Adding a nonempty span that meets no span of a separated list keeps it separated. -/
theorem Separated.of_add {later earlier : List Span} {span : Span} (separated : Separated earlier)
    (moved : ∀ weight, weigh weight later ≤ weigh weight earlier + weight span)
    (nonempty : span.start ≤ span.stop)
    (apart : ∀ point, span.contains point = true → weigh (holding point) earlier = 0) :
    Separated later := by
  have noEmpty : weigh emptiness earlier = 0 := weigh_emptiness_eq_zero.mpr separated.nonempty
  refine ⟨weigh_emptiness_eq_zero.mp ?_, fun point => ?_⟩
  · have := moved emptiness
    have spanFull : emptiness span = 0 := by simp [emptiness, isEmpty, Nat.not_lt.mpr nonempty]
    omega
  · have grown := moved (holding point)
    have single := separated.single point
    cases held : span.contains point
    · have outside : holding point span = 0 := by simp [holding, held]
      omega
    · have inside : holding point span = 1 := by simp [holding, held]
      have none := apart point held
      omega

/-- Pieces put after the other spans in place of one of them shrink the list. -/
theorem Shrinks.erase_append {spans pieces : List Span} {span : Span} (member : span ∈ spans)
    (refines : Refines pieces span) : Shrinks (spans.erase span ++ pieces) spans :=
  Shrinks.of_part (fun weight => by
    have erased := weigh_erase weight member
    simp only [weigh_append, weigh_cons, weigh_nil]
    omega) refines.shrinks

end Span
