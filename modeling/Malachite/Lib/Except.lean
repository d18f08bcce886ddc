import Mathlib

/-! Inverting a failed or successful step of the `Except` monad: a bind that
failed failed in its first computation or in the rest, and a bind that
returned returned from both. -/

namespace Except

theorem bind_eq_error {ε α β : Type} {first : Except ε α} {rest : α → Except ε β} {failure : ε}
    (failed : (first >>= rest) = .error failure) :
    first = .error failure ∨ ∃ value, first = .ok value ∧ rest value = .error failure := by
  cases first with
  | error error => exact Or.inl (by simpa [bind, Except.bind] using failed)
  | ok value => exact Or.inr ⟨value, rfl, failed⟩

theorem bind_eq_ok {ε α β : Type} {first : Except ε α} {rest : α → Except ε β} {result : β}
    (returned : (first >>= rest) = .ok result) :
    ∃ value, first = .ok value ∧ rest value = .ok result := by
  cases first with
  | error error => simp [bind, Except.bind] at returned
  | ok value => exact ⟨value, rfl, returned⟩

theorem map_eq_error {ε α β : Type} {inner : Except ε α} {wrap : α → β} {failure : ε}
    (failed : (wrap <$> inner) = .error failure) : inner = .error failure := by
  cases inner with
  | error error => simpa [Functor.map, Except.map] using failed
  | ok value => cases failed

end Except
