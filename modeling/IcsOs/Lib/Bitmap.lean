/- GID: IcsOs/Lib/Bitmap
   generality: G
   digest: Bits of a function of bytes: setting, clearing, filling up, and counting clear ones. -/

import Mathlib.Algebra.BigOperators.Group.Finset.Basic

set_option autoImplicit false

namespace IcsOs.Lib.Bitmap

open Finset

abbrev Bytes := Nat → BitVec 8

def bitAt (bytes : Bytes) (b : Nat) : Bool := (bytes (b / 8)).getLsbD (b % 8)

def setBit (bytes : Bytes) (b : Nat) : Bytes :=
  Function.update bytes (b / 8) (bytes (b / 8) ||| BitVec.twoPow 8 (b % 8))

def clearBit (bytes : Bytes) (b : Nat) : Bytes :=
  Function.update bytes (b / 8) (bytes (b / 8) &&& ~~~ BitVec.twoPow 8 (b % 8))

/-- All bits from `total` on set, up to the byte `size`. -/
def fillFrom (bytes : Bytes) (total size : Nat) : Bytes := fun i =>
  if i = total / 8 ∧ total % 8 ≠ 0 then bytes i ||| (BitVec.allOnes 8 <<< (total % 8))
  else if total / 8 + (if total % 8 ≠ 0 then 1 else 0) ≤ i ∧ i < size then BitVec.allOnes 8
  else bytes i

/-- Clear bits below a position. -/
def clearCount (bytes : Bytes) (n : Nat) : Nat :=
  ((Finset.range n).filter fun b => bitAt bytes b = false).card

variable {bytes bytes' : Bytes} {b c n total size : Nat}

theorem bitAt_setBit (bytes : Bytes) (b c : Nat) :
    bitAt (setBit bytes b) c = (decide (c = b) || bitAt bytes c) := by
  unfold bitAt setBit
  by_cases same : c / 8 = b / 8
  · rw [same, Function.update_self, BitVec.getLsbD_or, BitVec.getLsbD_twoPow]
    by_cases here : c = b
    · subst here
      have small : c % 8 < 8 := Nat.mod_lt _ (by decide)
      simp [small]
    · have apart : b % 8 ≠ c % 8 := by omega
      simp [here, apart]
  · have apart : c ≠ b := fun here => same (congrArg (· / 8) here)
    rw [Function.update_of_ne same]
    simp [apart]

theorem bitAt_clearBit (bytes : Bytes) (b c : Nat) :
    bitAt (clearBit bytes b) c = (decide (c ≠ b) && bitAt bytes c) := by
  unfold bitAt clearBit
  by_cases same : c / 8 = b / 8
  · rw [same, Function.update_self, BitVec.getLsbD_and, BitVec.getLsbD_not,
      BitVec.getLsbD_twoPow]
    have small : c % 8 < 8 := Nat.mod_lt _ (by decide)
    by_cases here : c = b
    · subst here
      simp [small]
    · have apart : b % 8 ≠ c % 8 := by omega
      simp [here, apart, small]
  · have apart : c ≠ b := fun here => same (congrArg (· / 8) here)
    rw [Function.update_of_ne same]
    simp [apart]

theorem bitAt_fillFrom (bytes : Bytes) (fits : total ≤ 8 * size) (c : Nat) :
    bitAt (fillFrom bytes total size) c = (decide (total ≤ c ∧ c < 8 * size) || bitAt bytes c) := by
  have small : c % 8 < 8 := Nat.mod_lt _ (by decide)
  have whole : total / 8 + (if total % 8 ≠ 0 then 1 else 0) = (total + 7) / 8 := by split <;> omega
  unfold bitAt fillFrom
  rw [whole]
  by_cases edge : c / 8 = total / 8 ∧ total % 8 ≠ 0
  · rw [if_pos edge, BitVec.getLsbD_or, BitVec.getLsbD_shiftLeft, BitVec.getLsbD_allOnes]
    by_cases above : total ≤ c
    · have from_ : ¬ c % 8 < total % 8 := by omega
      have below : c < 8 * size := by omega
      have inByte : c % 8 - total % 8 < 8 := by omega
      simp [above, from_, below, small, inByte]
    · have from_ : c % 8 < total % 8 := by omega
      simp [above, from_]
  · rw [if_neg edge]
    by_cases full : (total + 7) / 8 ≤ c / 8 ∧ c / 8 < size
    · have above : total ≤ c ∧ c < 8 * size := by omega
      rw [if_pos full, BitVec.getLsbD_allOnes]
      simp [above, small]
    · have below : ¬ (total ≤ c ∧ c < 8 * size) := by omega
      rw [if_neg full]
      simp [below]

theorem clearCount_congr (same : ∀ c < n, bitAt bytes' c = bitAt bytes c) :
    clearCount bytes' n = clearCount bytes n := by
  unfold clearCount
  congr 1
  apply filter_congr
  intro c below
  rw [same c (mem_range.mp below)]

theorem clearCount_take (below : b < n) (clear : bitAt bytes b = false)
    (taken : ∀ c < n, bitAt bytes' c = (decide (c = b) || bitAt bytes c)) :
    clearCount bytes' n + 1 = clearCount bytes n := by
  unfold clearCount
  have member : b ∈ (range n).filter fun c => bitAt bytes c = false :=
    mem_filter.mpr ⟨mem_range.mpr below, clear⟩
  have erased : ((range n).filter fun c => bitAt bytes' c = false) =
      ((range n).filter fun c => bitAt bytes c = false).erase b := by
    ext c
    simp only [mem_filter, mem_range, mem_erase]
    constructor
    · rintro ⟨inside, free⟩
      rw [taken c inside, Bool.or_eq_false_iff, decide_eq_false_iff_not] at free
      exact ⟨free.1, inside, free.2⟩
    · rintro ⟨apart, inside, free⟩
      rw [taken c inside, free]
      exact ⟨inside, by simpa using apart⟩
  rw [erased, card_erase_add_one member]

/-- Counts that differ in one place by one. -/
theorem sum_take {s : Finset Nat} {f f' : Nat → Nat} {g : Nat} (member : g ∈ s)
    (one : f' g + 1 = f g) (others : ∀ h ∈ s, h ≠ g → f' h = f h) :
    (∑ h ∈ s, f' h) + 1 = ∑ h ∈ s, f h := by
  have rest : ∑ h ∈ s.erase g, f' h = ∑ h ∈ s.erase g, f h := by
    apply sum_congr rfl
    intro h inside
    exact others h (mem_of_mem_erase inside) (ne_of_mem_erase inside)
  have before := add_sum_erase s f member
  have after := add_sum_erase s f' member
  omega

theorem clearCount_le (bytes : Bytes) (n : Nat) : clearCount bytes n ≤ n := by
  unfold clearCount
  exact (card_filter_le _ _).trans (card_range n).le

end IcsOs.Lib.Bitmap
