/- GID: IcsOs/Lib/Holdings
   generality: G
   digest: What finitely many holders have together, while one of them changes. -/

import Mathlib.Algebra.BigOperators.Group.Finset.Basic
import Mathlib.Data.Fintype.Basic

set_option autoImplicit false

namespace IcsOs.Lib.Holdings

open Finset

universe u v w

variable {ι : Type u} {P : Type v} {M : Type w} [Fintype ι] [DecidableEq ι] [AddCommMonoid M]

/-- One holder changes: the total gains what it has now and loses what it had. -/
theorem sum_update (f : P → M) (place : ι → P) (i : ι) (p : P) :
    ∑ j, f (Function.update place i p j) + f (place i) = ∑ j, f (place j) + f p := by
  have rest : ∑ j ∈ univ.erase i, f (Function.update place i p j) =
      ∑ j ∈ univ.erase i, f (place j) := by
    apply sum_congr rfl
    intro j member
    rw [Function.update_of_ne (ne_of_mem_erase member)]
  rw [← add_sum_erase _ _ (mem_univ i), rest, Function.update_self,
    ← add_sum_erase _ (fun j => f (place j)) (mem_univ i)]
  rw [add_right_comm, add_comm (f p), add_right_comm]

/-- A total of numbers bounds each of them. -/
theorem le_sum (f : ι → Nat) (i : ι) : f i ≤ ∑ j, f j := by
  rw [← add_sum_erase _ _ (mem_univ i)]
  exact Nat.le_add_right _ _

theorem add_le_sum (f : ι → Nat) {i j : ι} (apart : i ≠ j) : f i + f j ≤ ∑ k, f k := by
  have member : j ∈ univ.erase i := mem_erase.mpr ⟨apart.symm, mem_univ j⟩
  rw [← add_sum_erase _ _ (mem_univ i), ← add_sum_erase _ _ member]
  omega

theorem eq_zero_of_sum (f : ι → Nat) (zero : ∑ j, f j = 0) (i : ι) : f i = 0 := by
  have := le_sum f i
  omega

end IcsOs.Lib.Holdings
