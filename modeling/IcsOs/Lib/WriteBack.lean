/- GID: IcsOs/Lib/WriteBack
   generality: G
   digest: Write-back stores over arbitrary keys, their logical content and the moves that keep it.
   -/

import Mathlib.Data.Set.Basic

set_option autoImplicit false

namespace IcsOs.Lib.WriteBack

universe u v

/-- A backing store with a partial front; a flagged line may differ from below. -/
@[ext] structure Store (K : Type u) (V : Type v) where
  line : K → Option (V × Bool)
  back : K → V

variable {K : Type u} {V : Type v}

namespace Store

/-- What a reader of the store must see. -/
def logical (s : Store K V) (k : K) : V :=
  match s.line k with
  | some entry => entry.1
  | none => s.back k

/-- Lines without the dirty flag agree with the backing store. -/
def Coherent (s : Store K V) : Prop :=
  ∀ k v, s.line k = some (v, false) → v = s.back k

variable {k : K} {s : Store K V}

theorem logical_of_line {v : V} {b : Bool} (held : s.line k = some (v, b)) : s.logical k = v := by
  simp only [logical, held]

theorem logical_of_none (absent : s.line k = none) : s.logical k = s.back k := by
  simp only [logical, absent]

/-- Off the dirty lines of a coherent store the backing value is the content. -/
theorem Coherent.back_eq (coherent : s.Coherent) (clean : ∀ v, s.line k ≠ some (v, true)) :
    s.back k = s.logical k := by
  cases held : s.line k with
  | none => exact (logical_of_none held).symm
  | some entry =>
    obtain ⟨v, b⟩ := entry
    cases b with
    | true => exact absurd held (clean v)
    | false => rw [logical_of_line held, coherent k v held]

section Moves

open Classical

/-- Forget the lines of a set of keys. -/
noncomputable def drop (s : Store K V) (keys : Set K) : Store K V :=
  { s with line := fun k => if k ∈ keys then none else s.line k }

/-- Install clean copies of the backing values. -/
noncomputable def fill (s : Store K V) (keys : Set K) : Store K V :=
  { s with line := fun k => if k ∈ keys then some (s.back k, false) else s.line k }

/-- Install dirty lines with given values. -/
noncomputable def put (s : Store K V) (keys : Set K) (value : K → V) : Store K V :=
  { s with line := fun k => if k ∈ keys then some (value k, true) else s.line k }

/-- Write to the backing store behind the lines. -/
noncomputable def direct (s : Store K V) (keys : Set K) (value : K → V) : Store K V :=
  { s with back := fun k => if k ∈ keys then value k else s.back k }

/-- Carry the content of a set of lines to the backing store and clean them. -/
noncomputable def clean (s : Store K V) (keys : Set K) : Store K V where
  line k := if k ∈ keys then (s.line k).map fun entry => (entry.1, false) else s.line k
  back k := if k ∈ keys then s.logical k else s.back k

/-- Moves of a read path: lines without the dirty flag may vanish and copies of
the backing store may appear. -/
inductive Quiet : Store K V → Store K V → Prop
  | drop (s : Store K V) (keys : Set K)
      (undirty : ∀ k ∈ keys, ∀ v, s.line k ≠ some (v, true)) : Quiet s (s.drop keys)
  | fill (s : Store K V) (keys : Set K)
      (absent : ∀ k ∈ keys, s.line k = none) : Quiet s (s.fill keys)

/-- What a whole read path may do to a store. -/
abbrev Quiets : Store K V → Store K V → Prop := Relation.ReflTransGen Quiet

variable {t : Store K V}

theorem Quiet.coherent (move : Quiet s t) (coherent : s.Coherent) : t.Coherent := by
  cases move with
  | drop keys undirty =>
    intro k v held
    simp only [Store.drop] at held ⊢
    split at held
    · cases held
    · exact coherent k v held
  | fill keys absent =>
    intro k v held
    simp only [Store.fill] at held ⊢
    split at held
    · simp only [Option.some.injEq, Prod.mk.injEq, and_true] at held
      exact held.symm
    · exact coherent k v held

theorem Quiet.logical_eq (move : Quiet s t) (coherent : s.Coherent) : t.logical = s.logical := by
  funext k
  cases move with
  | drop keys undirty =>
    by_cases member : k ∈ keys
    · rw [← coherent.back_eq (undirty k member)]
      simp [logical, Store.drop, member]
    · simp [logical, Store.drop, member]
  | fill keys absent =>
    by_cases member : k ∈ keys
    · rw [logical_of_none (absent k member)]
      simp [logical, Store.fill, member]
    · simp [logical, Store.fill, member]

theorem Quiet.dirty_iff (move : Quiet s t) (k : K) (v : V) :
    t.line k = some (v, true) ↔ s.line k = some (v, true) := by
  cases move with
  | drop keys undirty =>
    by_cases member : k ∈ keys
    · simpa [Store.drop, member] using undirty k member v
    · simp [Store.drop, member]
  | fill keys absent =>
    by_cases member : k ∈ keys
    · simp [Store.fill, member, absent k member]
    · simp [Store.fill, member]

theorem Quiets.coherent (path : Quiets s t) (coherent : s.Coherent) : t.Coherent := by
  induction path with
  | refl => exact coherent
  | tail _ move ih => exact move.coherent ih

theorem Quiets.logical_eq (path : Quiets s t) (coherent : s.Coherent) : t.logical = s.logical := by
  induction path with
  | refl => rfl
  | tail before move ih => rw [move.logical_eq (Quiets.coherent before coherent), ih]

theorem Quiets.dirty_iff (path : Quiets s t) (k : K) (v : V) :
    t.line k = some (v, true) ↔ s.line k = some (v, true) := by
  induction path with
  | refl => rfl
  | tail _ move ih => rw [move.dirty_iff, ih]

theorem put_coherent (coherent : s.Coherent) (keys : Set K) (value : K → V) :
    (s.put keys value).Coherent := by
  intro k v held
  simp only [put] at held ⊢
  split at held
  · simp at held
  · exact coherent k v held

theorem put_logical (s : Store K V) (keys : Set K) (value : K → V) (k : K) :
    (s.put keys value).logical k = if k ∈ keys then value k else s.logical k := by
  by_cases member : k ∈ keys <;> simp [logical, put, member]

/-- A direct write that meets no line flagged as agreeing keeps coherence. -/
theorem direct_coherent (coherent : s.Coherent) (keys : Set K) (value : K → V)
    (unclean : ∀ k ∈ keys, ∀ v, s.line k ≠ some (v, false)) : (s.direct keys value).Coherent := by
  intro k v held
  by_cases member : k ∈ keys
  · exact absurd held (unclean k member v)
  · simpa [direct, member] using coherent k v held

/-- A direct write is seen where no line hides it or already holds the value. -/
theorem direct_logical {keys : Set K} {value : K → V}
    (agree : ∀ k ∈ keys, ∀ v b, s.line k = some (v, b) → v = value k) (k : K) :
    (s.direct keys value).logical k = if k ∈ keys then value k else s.logical k := by
  by_cases member : k ∈ keys
  · cases held : s.line k with
    | none => simp [logical, direct, held, member]
    | some entry => simpa [logical, direct, held, member] using agree k member entry.1 entry.2 held
  · simp [logical, direct, member]

theorem clean_logical (s : Store K V) (keys : Set K) : (s.clean keys).logical = s.logical := by
  funext k
  by_cases member : k ∈ keys
  · cases held : s.line k <;> simp [logical, Store.clean, held, member]
  · simp [logical, Store.clean, member]

theorem clean_coherent (coherent : s.Coherent) (keys : Set K) : (s.clean keys).Coherent := by
  intro k v held
  by_cases member : k ∈ keys
  · simp only [Store.clean, member, if_true, Option.map_eq_some_iff] at held ⊢
    obtain ⟨entry, line, same⟩ := held
    simp only [Prod.mk.injEq, and_true] at same
    rw [← same]
    exact (logical_of_line line).symm
  · simpa [Store.clean, member] using
      coherent k v (by simpa [Store.clean, member] using held)

theorem drop_coherent (coherent : s.Coherent) (keys : Set K) : (s.drop keys).Coherent := by
  intro k v held
  simp only [drop] at held ⊢
  split at held
  · cases held
  · exact coherent k v held

end Moves

end Store

end IcsOs.Lib.WriteBack
