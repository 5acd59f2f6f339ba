/- GID: IcsOs/Lib/Claims
   generality: G
   digest: Claimants of keyed things, no two of one key, while a claim is given or dropped. -/

import Mathlib.Logic.Function.Basic

set_option autoImplicit false

namespace IcsOs.Lib.Claims

open Function

universe u v w

variable {C : Type u} {A : Type v} {K : Type w} {key : A → K} {claim : C → Option A}

/-- No two claimants have things of the same key. -/
def Exclusive (key : A → K) (claim : C → Option A) : Prop :=
  ∀ c c' a a', claim c = some a → claim c' = some a' → key a = key a' → c = c'

theorem Exclusive.mono {fewer : C → Option A} (sole : Exclusive key claim)
    (within : ∀ c a, fewer c = some a → claim c = some a) : Exclusive key fewer := by
  intro c c' a a' mine yours same
  exact sole c c' a a' (within c a mine) (within c' a' yours) same

variable [DecidableEq C] {a : A} {c : C}

/-- A thing whose key nobody else claims is given away. -/
theorem Exclusive.give (sole : Exclusive key claim) (c : C) (a : A)
    (free : ∀ c' a', claim c' = some a' → key a' ≠ key a) :
    Exclusive key (update claim c (some a)) := by
  intro d d' b b' mine yours same
  rcases eq_or_ne d c with rfl | other
  · rcases eq_or_ne d' d with rfl | other'
    · rfl
    rw [update_self] at mine
    rw [update_of_ne other'] at yours
    cases mine
    exact absurd same.symm (free d' b' yours)
  · rw [update_of_ne other] at mine
    rcases eq_or_ne d' c with rfl | other'
    · rw [update_self] at yours
      cases yours
      exact absurd same (free d b mine)
    · rw [update_of_ne other'] at yours
      exact sole d d' b b' mine yours same

/-- What a claimant has after its claim was dropped, it had before. -/
theorem drop_claim {d : C} (has : update claim c none d = some a) : claim d = some a := by
  rcases eq_or_ne d c with rfl | other
  · rw [update_self] at has
    cases has
  · rwa [update_of_ne other] at has

theorem give_claim {d : C} {b : A} (has : update claim c (some a) d = some b) :
    b = a ∨ claim d = some b := by
  rcases eq_or_ne d c with rfl | other
  · rw [update_self] at has
    exact .inl (Option.some.inj has).symm
  · rw [update_of_ne other] at has
    exact .inr has

/-- After a claim was dropped nobody has its key. -/
theorem Exclusive.dropped (sole : Exclusive key claim) (has : claim c = some a) :
    ∀ d b, update claim c none d = some b → key b ≠ key a := by
  intro d b mine same
  have before := drop_claim mine
  obtain rfl := sole d c b a before has same
  rw [update_self] at mine
  cases mine

end IcsOs.Lib.Claims
