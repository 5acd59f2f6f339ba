/- GID: IcsOs/Lib/Updates
   generality: G
   digest: What a table says of a place after one of its places was written. -/

import Mathlib.Logic.Function.Basic

set_option autoImplicit false

namespace IcsOs.Lib.Updates

universe u v x

variable {α : Type u} {β : Type v} {γ : Type x} [DecidableEq α] {t : α → β} {i j : α} {b : β}

/-- What is seen after a write is the value there, or another place as it was. -/
theorem update_cases {g : β → γ} {c : γ} (seen : g (Function.update t i b j) = c) :
    (j = i ∧ g b = c) ∨ (j ≠ i ∧ g (t j) = c) := by
  by_cases here : j = i
  · rw [here, Function.update_self] at seen
    exact .inl ⟨here, seen⟩
  · rw [Function.update_of_ne here] at seen
    exact .inr ⟨here, seen⟩

/-- `update_cases` for the values themselves. -/
theorem update_eq_cases {c : β} (seen : Function.update t i b j = c) :
    (j = i ∧ b = c) ∨ (j ≠ i ∧ t j = c) := update_cases (g := id) seen

end IcsOs.Lib.Updates
