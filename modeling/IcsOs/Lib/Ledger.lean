/- GID: IcsOs/Lib/Ledger
   generality: G
   digest: Counting the owners of a resource while owners change hands one at a time. -/

import Mathlib.Data.Finset.Prod

set_option autoImplicit false

namespace IcsOs.Lib.Ledger

open Finset

universe u v

variable {ι : Type u} {F : Type v} [DecidableEq F]

/-- How many places of the domain own the resource. -/
def tally (dom : Finset ι) (own : ι → Option F) (f : F) : Nat :=
  (dom.filter fun i => own i = some f).card

/-- One if the place owns the resource. -/
def share (owner : Option F) (f : F) : Nat := if owner = some f then 1 else 0

@[simp] theorem share_none (f : F) : share (none : Option F) f = 0 := by simp [share]

@[simp] theorem share_self (f : F) : share (some f) f = 1 := by simp [share]

theorem share_ne {f g : F} (apart : f ≠ g) : share (some f) g = 0 := by
  simp [share, apart]

variable {dom : Finset ι} {own own' : ι → Option F} {f : F} {i j : ι}

theorem tally_congr (same : ∀ i ∈ dom, own' i = own i) (f : F) :
    tally dom own' f = tally dom own f := by
  unfold tally
  congr 1
  apply filter_congr
  intro i member
  rw [same i member]

theorem tally_pos (member : i ∈ dom) (owns : own i = some f) : 0 < tally dom own f := by
  apply card_pos.mpr
  exact ⟨i, mem_filter.mpr ⟨member, owns⟩⟩

theorem not_owned_of_tally (zero : tally dom own f = 0) (member : i ∈ dom) : own i ≠ some f := by
  intro owns
  have positive := tally_pos member owns
  omega

theorem tally_zero (none : ∀ i ∈ dom, own i ≠ some f) : tally dom own f = 0 := by
  apply card_eq_zero.mpr
  apply filter_eq_empty_iff.mpr
  exact fun i member => none i member

variable [DecidableEq ι]

/-- One place apart from the rest. -/
theorem tally_erase (own : ι → Option F) (member : i ∈ dom) (f : F) :
    tally dom own f = tally (dom.erase i) own f + share (own i) f := by
  unfold tally share
  by_cases owns : own i = some f
  · have here : i ∈ dom.filter fun j => own j = some f := mem_filter.mpr ⟨member, owns⟩
    rw [if_pos owns, filter_erase, card_erase_add_one here]
  · rw [if_neg owns, filter_erase, erase_eq_of_notMem, Nat.add_zero]
    intro here
    exact owns (mem_filter.mp here).2

/-- Changing the owner of one place moves one share. -/
theorem tally_change (own own' : ι → Option F) (member : i ∈ dom)
    (same : ∀ j ∈ dom, j ≠ i → own' j = own j) (f : F) :
    tally dom own' f + share (own i) f = tally dom own f + share (own' i) f := by
  have rest : tally (dom.erase i) own' f = tally (dom.erase i) own f := by
    apply tally_congr
    intro j inRest
    exact same j (mem_of_mem_erase inRest) (ne_of_mem_erase inRest)
  rw [tally_erase own' member f, tally_erase own member f, rest]
  omega

end IcsOs.Lib.Ledger
