import Mathlib

namespace Malachite

/-! Rounds of `core-types/src/round.rs`.

A round is either `Nil` (rendered as `-1`) or a defined round `r ≥ 0`.  The
source stores defined rounds as `u32`; the model uses `Nat`, since no modelled
behaviour depends on the `u32` bound.  Rounds are ordered through `as_i64`,
exactly as the source's `Ord` instance does, so `Nil` is below every defined
round.
-/

inductive Round where
  | nil
  | some (round : Nat)
deriving DecidableEq, Repr

namespace Round

def zero : Round := .some 0

def asI64 : Round → Int
  | .nil => -1
  | .some r => r

def isDefined : Round → Bool
  | .nil => false
  | .some _ => true

def isNil : Round → Bool
  | .nil => true
  | .some _ => false

/-- `Nil` increments to the initial round `0`. -/
def increment : Round → Round
  | .nil => .some 0
  | .some r => .some (r + 1)

theorem asI64_injective : Function.Injective asI64 := by
  intro left right same
  cases left with
  | nil =>
      cases right with
      | nil => rfl
      | some s => simp only [asI64] at same; omega
  | some r =>
      cases right with
      | nil => simp only [asI64] at same; omega
      | some s =>
          simp only [asI64, Int.natCast_inj] at same
          rw [same]

instance : LinearOrder Round := LinearOrder.lift' asI64 asI64_injective

theorem le_iff_asI64 {left right : Round} : left ≤ right ↔ left.asI64 ≤ right.asI64 :=
  Iff.rfl

theorem lt_iff_asI64 {left right : Round} : left < right ↔ left.asI64 < right.asI64 :=
  Iff.rfl

@[simp] theorem asI64_nil : Round.nil.asI64 = -1 := rfl

@[simp] theorem asI64_some (r : Nat) : (Round.some r).asI64 = r := rfl

@[simp] theorem isDefined_nil : Round.nil.isDefined = false := rfl

@[simp] theorem isDefined_some (r : Nat) : (Round.some r).isDefined = true := rfl

@[simp] theorem isNil_nil : Round.nil.isNil = true := rfl

@[simp] theorem isNil_some (r : Nat) : (Round.some r).isNil = false := rfl

@[simp] theorem increment_nil : Round.nil.increment = .some 0 := rfl

@[simp] theorem increment_some (r : Nat) : (Round.some r).increment = .some (r + 1) := rfl

@[simp] theorem some_le_some {r s : Nat} : Round.some r ≤ .some s ↔ r ≤ s := by
  simp [le_iff_asI64]

@[simp] theorem some_lt_some {r s : Nat} : Round.some r < .some s ↔ r < s := by
  simp [lt_iff_asI64]

theorem lt_increment (round : Round) : round < round.increment := by
  cases round <;> simp [lt_iff_asI64]

/-- A round strictly above another one is defined. -/
theorem ne_nil_of_lt {lower round : Round} (above : lower < round) : round ≠ .nil := by
  rintro rfl
  cases lower <;> simp [lt_iff_asI64] at above
  omega

end Round

end Malachite
