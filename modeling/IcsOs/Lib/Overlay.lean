/- GID: IcsOs/Lib/Overlay
   generality: G
   digest: Reading and writing runs of cells in a function on positions. -/

import Mathlib.Data.List.Basic

set_option autoImplicit false

namespace IcsOs.Lib.Overlay

open List

universe u

variable {α : Type u}

/-- The cells of a store from a position on. -/
def slice (store : Nat → α) (start n : Nat) : List α :=
  (List.range n).map fun i => store (start + i)

/-- Values written over a store from a position on. -/
def overlay (store : Nat → α) (start : Nat) (values : List α) : Nat → α := fun i =>
  if start ≤ i then (values[i - start]?).getD (store i) else store i

variable {store store' : Nat → α} {start n i : Nat} {values : List α}

@[simp] theorem length_slice (store : Nat → α) (start n : Nat) :
    (slice store start n).length = n := by
  simp [slice]

theorem getElem?_slice (store : Nat → α) (start : Nat) (inside : i < n) :
    (slice store start n)[i]? = some (store (start + i)) := by
  simp [slice, inside]

theorem slice_zero (store : Nat → α) (start : Nat) : slice store start 0 = [] := rfl

theorem slice_succ (store : Nat → α) (start n : Nat) :
    slice store start (n + 1) = store start :: slice store (start + 1) n := by
  unfold slice
  rw [range_succ_eq_map, map_cons, map_map, Nat.add_zero]
  congr 1
  apply map_congr_left
  intro k _
  show store (start + (k + 1)) = store (start + 1 + k)
  congr 1
  omega

/-- Stores that agree on a range have the same cells there. -/
theorem slice_congr (same : ∀ i, start ≤ i → i < start + n → store' i = store i) :
    slice store' start n = slice store start n := by
  unfold slice
  apply map_congr_left
  intro k inside
  rw [mem_range] at inside
  exact same (start + k) (Nat.le_add_right _ _) (by omega)

theorem slice_add (store : Nat → α) (start m n : Nat) :
    slice store start (m + n) = slice store start m ++ slice store (start + m) n := by
  unfold slice
  rw [range_add, map_append, map_map]
  congr 1
  apply map_congr_left
  intro k _
  show store (start + (m + k)) = store (start + m + k)
  rw [Nat.add_assoc]

@[simp] theorem overlay_nil (store : Nat → α) (start : Nat) : overlay store start [] = store := by
  funext i
  simp [overlay]

theorem overlay_before (store : Nat → α) (values : List α) (before : i < start) :
    overlay store start values i = store i := by
  unfold overlay
  rw [if_neg (by omega)]

theorem overlay_after (store : Nat → α) (after : start + values.length ≤ i) :
    overlay store start values i = store i := by
  unfold overlay
  have out : values[i - start]? = none := getElem?_eq_none (by omega)
  rw [out]
  simp

theorem overlay_inside (store : Nat → α) {value : α} (first : start ≤ i)
    (there : values[i - start]? = some value) : overlay store start values i = value := by
  unfold overlay
  rw [if_pos first, there]
  rfl

/-- Writing on from where the last write ended. -/
theorem overlay_append (store : Nat → α) (start : Nat) (first second : List α) :
    overlay store start (first ++ second) =
      overlay (overlay store start first) (start + first.length) second := by
  funext i
  by_cases before : i < start
  · rw [overlay_before store _ before, overlay_before _ _ (by omega), overlay_before _ _ before]
  by_cases inFirst : i < start + first.length
  · rw [overlay_before _ _ inFirst]
    unfold overlay
    rw [if_pos (by omega), if_pos (by omega), getElem?_append_left (by omega)]
  have shift : i - start - first.length = i - (start + first.length) := by omega
  unfold overlay
  rw [if_pos (by omega), if_pos (by omega), getElem?_append_right (by omega), shift,
    if_pos (by omega), getElem?_eq_none (show first.length ≤ i - start by omega)]
  rfl

/-- Writing back what is there changes nothing. -/
theorem overlay_self (same : ∀ k value, values[k]? = some value → value = store (start + k)) :
    overlay store start values = store := by
  funext i
  by_cases before : i < start
  · exact overlay_before store values before
  by_cases after : start + values.length ≤ i
  · exact overlay_after store after
  have inside : i - start < values.length := by omega
  have there : values[i - start]? = some values[i - start] := getElem?_eq_getElem inside
  rw [overlay_inside store (by omega) there, same _ _ there]
  congr 1
  omega

/-- What was written is read back. -/
theorem slice_overlay (store : Nat → α) (start : Nat) (values : List α) :
    slice (overlay store start values) start values.length = values := by
  apply ext_getElem?
  intro k
  by_cases inside : k < values.length
  · rw [getElem?_slice _ _ inside]
    have there : values[k]? = some values[k] := getElem?_eq_getElem inside
    rw [there, overlay_inside store (Nat.le_add_right _ _) (by rw [Nat.add_sub_cancel_left, there])]
  · rw [getElem?_eq_none (by rw [length_slice]; omega), getElem?_eq_none (by omega)]

theorem slice_overlay_slice (buf : Nat → α) (store : Nat → α) (start n : Nat) :
    slice (overlay buf 0 (slice store start n)) 0 n = slice store start n := by
  have read := slice_overlay buf 0 (slice store start n)
  rwa [length_slice] at read

theorem slice_eq_of {start' : Nat} (same : ∀ k, k < n → store (start + k) = store' (start' + k)) :
    slice store start n = slice store' start' n := by
  unfold slice
  apply map_congr_left
  intro k inside
  exact same k (mem_range.1 inside)

/-- A buffer with the first values of a range has more of them after the next are copied. -/
theorem overlay_extend {base buf : Nat → α} {m : Nat}
    (held : buf = overlay base 0 (slice store start m))
    (next : values = slice store (start + m) n) :
    overlay buf m values = overlay base 0 (slice store start (m + n)) := by
  rw [held, next, slice_add, overlay_append, length_slice, Nat.zero_add]

/-- Two stores that agree on a range still do after the same write. -/
theorem overlay_congr (same : store' i = store i) :
    overlay store' start values i = overlay store start values i := by
  unfold overlay
  rw [same]

/-- Reading a run, changing a part of it and writing it back changes that part. -/
theorem overlay_through (store : Nat → α) (base : Nat) {off : Nat}
    (fits : off + values.length ≤ n) :
    overlay store base (slice (overlay (fun k => store (base + k)) off values) 0 n) =
      overlay store (base + off) values := by
  funext i
  by_cases before : i < base
  · rw [overlay_before _ _ before, overlay_before _ _ (by omega)]
  by_cases after : base + n ≤ i
  · rw [overlay_after _ (by rw [length_slice]; omega), overlay_after _ (by omega)]
  have there := getElem?_slice (overlay (fun k => store (base + k)) off values) 0
    (show i - base < n by omega)
  rw [overlay_inside store (by omega) there, Nat.zero_add]
  by_cases left : i - base < off
  · rw [overlay_before _ _ left, overlay_before _ _ (by omega)]
    congr 1
    omega
  by_cases right : off + values.length ≤ i - base
  · rw [overlay_after _ right, overlay_after _ (by omega)]
    congr 1
    omega
  obtain ⟨value, part⟩ : ∃ value, values[i - base - off]? = some value :=
    ⟨_, getElem?_eq_getElem (by omega)⟩
  have same : i - base - off = i - (base + off) := by omega
  rw [overlay_inside _ (by omega) part]
  rw [same] at part
  exact (overlay_inside store (by omega) part).symm

end IcsOs.Lib.Overlay
