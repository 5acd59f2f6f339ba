/- GID: IcsOs/Lib/Tokens
   generality: G
   digest: The non-empty pieces of a list between separators, and taking them off one by one. -/

import Mathlib.Data.List.Basic

set_option autoImplicit false

namespace IcsOs.Lib.Tokens

open List

universe u

variable {α : Type u} (sep : α → Bool)

/-- The non-empty pieces between separators. -/
def pieces (s : List α) : List (List α) := (s.splitOnP sep).filter fun t => !t.isEmpty

/-- The first piece and what stands after the separator that ends it, if one does. -/
def token (s : List α) : Option (List α × Option (List α)) :=
  match s.dropWhile sep with
  | [] => none
  | c :: s' =>
    some (c :: s'.takeWhile fun x => !sep x,
      match s'.dropWhile fun x => !sep x with
      | [] => none
      | _ :: rest => some rest)

/-- Pieces taken off one after the other, at most so many. -/
def tokens : Nat → List α → List (List α)
  | 0, _ => []
  | k + 1, s =>
    match token sep s with
    | none => []
    | some (t, none) => [t]
    | some (t, some rest) => t :: tokens k rest

variable {sep} {c : α}

theorem pieces_nil : pieces sep [] = [] := rfl

theorem pieces_append (ends : sep c = true) (s s' : List α) :
    pieces sep (s ++ c :: s') = pieces sep s ++ pieces sep s' := by
  unfold pieces
  rw [splitOnP_append_cons s s' ends, filter_append]

theorem pieces_cons (ends : sep c = true) (s : List α) : pieces sep (c :: s) = pieces sep s :=
  pieces_append ends [] s

theorem pieces_single {s : List α} (plain : ∀ c ∈ s, sep c = false) (some' : s ≠ []) :
    pieces sep s = [s] := by
  unfold pieces
  rw [splitOnP_eq_singleton plain, filter_cons_of_pos]
  · rfl
  · cases s with
    | nil => exact absurd rfl some'
    | cons c s => rfl

theorem pieces_dropWhile (s : List α) : pieces sep (s.dropWhile sep) = pieces sep s := by
  induction s with
  | nil => rfl
  | cons c s ih =>
    cases ends : sep c with
    | true => rw [dropWhile_cons_of_pos ends, ih, pieces_cons ends]
    | false => rw [dropWhile_cons_of_neg (by simp [ends])]

theorem dropWhile_head {s s' : List α} (found : s.dropWhile sep = c :: s') : sep c = false := by
  have head := head?_dropWhile_not sep s
  rwa [found] at head

/-- The first token is the first piece, and the rest has the others. -/
theorem token_spec (sep : α → Bool) (s : List α) :
    match token sep s with
    | none => pieces sep s = []
    | some (t, rest) => pieces sep s = t :: pieces sep (rest.getD []) := by
  unfold token
  cases start : s.dropWhile sep with
  | nil =>
    dsimp only
    rw [← pieces_dropWhile, start, pieces_nil]
  | cons c s' =>
    dsimp only
    have head := dropWhile_head start
    have plain : ∀ x ∈ c :: s'.takeWhile (fun x => !sep x), sep x = false := by
      intro x member
      rcases mem_cons.mp member with rfl | later
      · exact head
      · have := all_eq_true.mp all_takeWhile x later
        simpa using this
    have whole : c :: s' = (c :: s'.takeWhile fun x => !sep x) ++
        s'.dropWhile (fun x => !sep x) := by
      rw [cons_append, takeWhile_append_dropWhile]
    rw [← pieces_dropWhile, start, whole]
    cases rest : s'.dropWhile fun x => !sep x with
    | nil =>
      rw [append_nil, pieces_single plain (by simp)]
      rfl
    | cons d rest' =>
      have ends : sep d = true := by
        have := dropWhile_head rest
        simpa using this
      rw [pieces_append ends, pieces_single plain (by simp)]
      rfl

/-- Tokens are the first pieces. -/
theorem tokens_eq (k : Nat) (s : List α) : tokens sep k s = (pieces sep s).take k := by
  induction k generalizing s with
  | zero => rfl
  | succ k ih =>
    have spec := token_spec sep s
    unfold tokens
    cases first : token sep s with
    | none =>
      rw [first] at spec
      dsimp only at spec ⊢
      rw [spec]
      rfl
    | some found =>
      obtain ⟨t, rest⟩ := found
      rw [first] at spec
      dsimp only at spec
      rw [spec]
      cases rest with
      | none => simp [pieces_nil]
      | some rest =>
        dsimp only
        rw [ih rest]
        rfl

end IcsOs.Lib.Tokens
