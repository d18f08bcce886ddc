import Mathlib

/-! Weighted counting.

Facts about sums of weights over lists of distinct keys, and about fractional
thresholds `weight * denominator > total * numerator` over such sums: a
threshold of at least one half cannot be met by two disjoint parts of the
same total. -/

namespace Weights

variable {α : Type}

/-- Distinct keys drawn from a list weigh at most that list. -/
theorem sum_le_of_nodup_subset (weight : α → Nat) {keys all : List α}
    (distinct : keys.Nodup) (within : keys ⊆ all) :
    (keys.map weight).sum ≤ (all.map weight).sum := by
  obtain ⟨permuted, same, sublist⟩ := distinct.subperm within
  have equal : (permuted.map weight).sum = (keys.map weight).sum := (same.map weight).sum_eq
  rw [← equal]
  exact (sublist.map weight).sum_le_sum (fun _ _ => Nat.zero_le _)

/-- Two disjoint filters of a list weigh at most the whole list. -/
theorem sum_filter_add_sum_filter_le (weight : α → Nat) (first second : α → Bool)
    (disjoint : ∀ entry, first entry = true → second entry = false) (entries : List α) :
    ((entries.filter first).map weight).sum + ((entries.filter second).map weight).sum ≤
      (entries.map weight).sum := by
  induction entries with
  | nil => simp
  | cons entry rest ih =>
      cases inFirst : first entry with
      | true =>
          have notSecond := disjoint entry inFirst
          simp only [List.filter_cons, inFirst, notSecond, if_true, Bool.false_eq_true, if_false,
            List.map_cons, List.sum_cons]
          omega
      | false =>
          cases inSecond : second entry with
          | true =>
              simp only [List.filter_cons, inFirst, inSecond, if_true, Bool.false_eq_true,
                if_false, List.map_cons, List.sum_cons]
              omega
          | false =>
              simp only [List.filter_cons, inFirst, inSecond, Bool.false_eq_true, if_false,
                List.map_cons, List.sum_cons]
              omega

/-- A threshold of at least one half is not met by both of two parts of a total. -/
theorem not_both_met {numerator denominator total first second : Nat}
    (half : denominator ≤ 2 * numerator) (parts : first + second ≤ total)
    (firstMet : total * numerator < first * denominator)
    (secondMet : total * numerator < second * denominator) : False := by
  have both : 2 * (total * numerator) < (first + second) * denominator := by
    rw [Nat.add_mul]
    omega
  have bounded : (first + second) * denominator ≤ total * denominator :=
    Nat.mul_le_mul_right _ parts
  have doubled : total * denominator ≤ 2 * (total * numerator) := by
    calc total * denominator ≤ total * (2 * numerator) := Nat.mul_le_mul_left _ half
      _ = 2 * (total * numerator) := Nat.mul_left_comm _ _ _
  exact Nat.lt_irrefl _ (Nat.lt_of_lt_of_le both (Nat.le_trans bounded doubled))

end Weights
