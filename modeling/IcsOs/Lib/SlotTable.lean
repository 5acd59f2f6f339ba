/- GID: IcsOs/Lib/SlotTable
   generality: G
   digest: A bounded table of keyed slots: lookups while slots are taken, rewritten and given up. -/

import Mathlib.Data.List.FinRange

set_option autoImplicit false

namespace IcsOs.Lib.SlotTable

open Function Option

universe u v

variable {K : Type u} {V : Type v} [DecidableEq K] {n : Nat}

/-- Slots that are free or belong to a key. -/
abbrev Table (K : Type u) (V : Type v) (n : Nat) := Fin n → Option (K × V)

/-- The first slot of a key. -/
def place (t : Table K V n) (k : K) : Option (Fin n) :=
  (List.finRange n).find? fun i => (t i).any fun slot => slot.1 = k

/-- The first free slot. -/
def vacant (t : Table K V n) : Option (Fin n) := (List.finRange n).find? fun i => (t i).isNone

def lookup (t : Table K V n) (k : K) : Option V := (place t k).bind fun i => (t i).map Prod.snd

/-- No key has two slots. -/
def Distinct (t : Table K V n) : Prop :=
  ∀ i j k v w, t i = some (k, v) → t j = some (k, w) → i = j

variable {t : Table K V n} {k l : K} {i : Fin n} {v w : V}

omit [DecidableEq K] in
theorem vacant_free (found : vacant t = some i) : t i = none := by
  have free := List.find?_some (p := fun i => (t i).isNone) found
  exact isNone_iff_eq_none.mp free

theorem place_some (found : place t k = some i) : ∃ v, t i = some (k, v) := by
  have owned := List.find?_some (p := fun i => (t i).any fun slot : K × V => slot.1 = k) found
  obtain ⟨⟨key, v⟩, held, same⟩ := (any_eq_true _ _).mp owned
  obtain rfl : key = k := of_decide_eq_true same
  exact ⟨v, held⟩

theorem place_none (missing : place t k = none) (i : Fin n) (v : V) : t i ≠ some (k, v) := by
  intro held
  have refused := List.find?_eq_none.mp missing i (List.mem_finRange i)
  apply refused
  rw [held, any_some]
  exact decide_eq_true rfl

theorem place_of_held (distinct : Distinct t) (held : t i = some (k, v)) : place t k = some i := by
  cases found : place t k with
  | none => exact absurd held (place_none found i v)
  | some j =>
    obtain ⟨w, other⟩ := place_some found
    rw [distinct j i k w v other held]

theorem lookup_of_held (distinct : Distinct t) (held : t i = some (k, v)) :
    lookup t k = some v := by
  rw [lookup, place_of_held distinct held, bind_some, held, map_some]

theorem lookup_of_missing (missing : place t k = none) : lookup t k = none := by
  rw [lookup, missing, bind_none]

theorem held_of_lookup (found : lookup t k = some v) : ∃ i, t i = some (k, v) := by
  obtain ⟨i, here, value⟩ := bind_eq_some_iff.mp found
  obtain ⟨w, held⟩ := place_some here
  rw [held, map_some] at value
  cases value
  exact ⟨i, held⟩

theorem lookup_iff (distinct : Distinct t) : lookup t k = some v ↔ ∃ i, t i = some (k, v) :=
  ⟨held_of_lookup, fun ⟨_, held⟩ => lookup_of_held distinct held⟩

/-- The slot is free and the key has none, or it is the key's own. -/
def Fits (t : Table K V n) (i : Fin n) (k : K) : Prop :=
  (t i = none ∧ place t k = none) ∨ place t k = some i

theorem Fits.only (distinct : Distinct t) (fits : Fits t i k) {j : Fin n} {w : V}
    (held : t j = some (k, w)) : j = i := by
  rcases fits with ⟨-, missing⟩ | own
  · exact absurd held (place_none missing j w)
  · obtain ⟨v, here⟩ := place_some own
    exact distinct j i k w v held here

theorem Fits.distinct (distinct : Distinct t) (fits : Fits t i k) (v : V) :
    Distinct (update t i (some (k, v))) := by
  intro a b key x y first second
  rw [update_apply] at first second
  split at first
  · rename_i here
    cases first
    split at second
    · rename_i there
      rw [here, there]
    · rw [here, fits.only distinct second]
  · split at second
    · rename_i there
      cases second
      rw [there, fits.only distinct first]
    · exact distinct a b key x y first second

/-- A slot that is written belongs to its key; other keys keep theirs. -/
theorem Fits.lookup (distinct : Distinct t) (fits : Fits t i k) (v : V) (l : K) :
    lookup (update t i (some (k, v))) l = if l = k then some v else lookup t l := by
  have distinct' := fits.distinct distinct v
  split
  · rename_i same
    subst same
    exact lookup_of_held distinct' (update_self ..)
  rename_i apart
  apply ext
  intro w
  rw [lookup_iff distinct', lookup_iff distinct]
  constructor
  · rintro ⟨j, held⟩
    rw [update_apply] at held
    split at held
    · cases held
      exact absurd rfl apart
    · exact ⟨j, held⟩
  · rintro ⟨j, held⟩
    refine ⟨j, ?_⟩
    rw [update_apply, if_neg]
    · exact held
    rintro rfl
    rcases fits with ⟨free, -⟩ | own
    · rw [free] at held
      cases held
    obtain ⟨x, here⟩ := place_some own
    rw [held] at here
    cases here
    exact apart rfl

theorem Fits.place (distinct : Distinct t) (fits : Fits t i k) (v : V) :
    place (update t i (some (k, v))) k = some i :=
  place_of_held (fits.distinct distinct v) (update_self ..)

omit [DecidableEq K] in
theorem distinct_release (distinct : Distinct t) : Distinct (update t i none) := by
  intro a b key x y first second
  rw [update_apply] at first second
  split at first
  · cases first
  · split at second
    · cases second
    · exact distinct a b key x y first second

/-- A slot that is given up. -/
theorem lookup_release (distinct : Distinct t) (own : place t k = some i) (l : K) :
    lookup (update t i none) l = if l = k then none else lookup t l := by
  obtain ⟨v, here⟩ := place_some own
  apply ext
  intro w
  rw [lookup_iff (distinct_release distinct)]
  constructor
  · rintro ⟨j, held⟩
    rw [update_apply] at held
    split at held
    · cases held
    rename_i other
    rw [if_neg]
    · exact (lookup_iff distinct).mpr ⟨j, held⟩
    · rintro rfl
      exact other (distinct j i l w v held here)
  · intro found
    split at found
    · cases found
    rename_i apart
    obtain ⟨j, held⟩ := held_of_lookup found
    refine ⟨j, ?_⟩
    rw [update_apply, if_neg]
    · exact held
    rintro rfl
    rw [held] at here
    cases here
    exact apart rfl

end IcsOs.Lib.SlotTable
