/- GID: IcsOs/Lib/Checked
   generality: G
   digest: Buffers with checked access, and rules for computations that must not leave them. -/

import Mathlib.Data.List.Basic

set_option autoImplicit false

namespace IcsOs.Lib.Checked

universe u

variable {α β : Type u} {post : α → Prop} {run : Option α}

/-- The computation stays within its buffers and its result is as stated. -/
def Safe (post : α → Prop) (run : Option α) : Prop := ∃ value, run = some value ∧ post value

theorem Safe.pure {value : α} (holds : post value) : Safe post (some value) :=
  ⟨value, rfl, holds⟩

theorem Safe.bind {mid : α → Prop} {post : β → Prop} {next : α → Option β} (first : Safe mid run)
    (second : ∀ value, mid value → Safe post (next value)) : Safe post (run >>= next) := by
  obtain ⟨value, rfl, holds⟩ := first
  exact second value holds

theorem Safe.mono {mid : α → Prop} (first : Safe mid run)
    (weaker : ∀ value, mid value → post value) : Safe post run := by
  obtain ⟨value, done, holds⟩ := first
  exact ⟨value, done, weaker value holds⟩

theorem Safe.ite {p : Prop} [Decidable p] {yes no : Option α} (positive : p → Safe post yes)
    (negative : ¬ p → Safe post no) : Safe post (if p then yes else no) := by
  by_cases holds : p
  · rw [if_pos holds]
    exact positive holds
  · rw [if_neg holds]
    exact negative holds

theorem Safe.ne_none (safe : Safe post run) : run ≠ none := by
  obtain ⟨value, rfl, -⟩ := safe
  exact Option.some_ne_none value

/-- A part of the buffer, if it lies in it. -/
def readAt (buf : List α) (off len : Nat) : Option (List α) :=
  if off + len ≤ buf.length then some ((buf.drop off).take len) else none

/-- The buffer with values written over it, if they fit. -/
def writeAt (buf : List α) (off : Nat) (values : List α) : Option (List α) :=
  if off + values.length ≤ buf.length then
    some (buf.take off ++ values ++ buf.drop (off + values.length))
  else none

variable {buf values : List α} {off len : Nat}

theorem readAt_safe (inside : off + len ≤ buf.length) :
    Safe (fun data => data.length = len) (readAt buf off len) := by
  unfold readAt
  rw [if_pos inside]
  refine Safe.pure ?_
  rw [List.length_take, List.length_drop]
  omega

theorem writeAt_safe (inside : off + values.length ≤ buf.length) :
    Safe (fun buf' => buf'.length = buf.length) (writeAt buf off values) := by
  unfold writeAt
  rw [if_pos inside]
  refine Safe.pure ?_
  rw [List.length_append, List.length_append, List.length_take, List.length_drop]
  omega

end IcsOs.Lib.Checked
