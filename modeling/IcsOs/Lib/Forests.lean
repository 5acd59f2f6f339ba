/- GID: IcsOs/Lib/Forests
   generality: G
   digest: Trees kept as lists of entries at numbered places: walks down, climbs to the root. -/

import Mathlib.Data.List.Basic

set_option autoImplicit false

namespace IcsOs.Lib.Forests

section Walks

variable (kids : Nat → List Nat) (enter : Nat → Bool)

/-- What a walk meets below a place, going on below those it enters. -/
def visit : Nat → Nat → List Nat
  | 0, _ => []
  | fuel + 1, d => (kids d).flatMap fun k => k :: if enter k then visit fuel k else []

/-- The second place is in the tree below the first one. -/
inductive Below : Nat → Nat → Prop
  | child {d k : Nat} (here : k ∈ kids d) : Below d k
  | under {d c k : Nat} (here : c ∈ kids d) (deeper : Below c k) : Below d k

variable {kids enter} {d m k fuel : Nat}

theorem Below.down (below : Below kids d m) (here : k ∈ kids m) : Below kids d k := by
  induction below with
  | child there => exact .under there (.child here)
  | under there _ ih => exact .under there (ih here)

/-- The list a place below stands in is the top's or another such place's. -/
theorem Below.last (below : Below kids d k) :
    k ∈ kids d ∨ ∃ m, Below kids d m ∧ k ∈ kids m := by
  induction below with
  | child here => exact .inl here
  | @under d c k here _ ih =>
    right
    rcases ih with direct | ⟨m, deeper, direct⟩
    · exact ⟨c, .child here, direct⟩
    · exact ⟨m, .under here deeper, direct⟩

theorem below_of_mem_visit (met : k ∈ visit kids enter fuel d) : Below kids d k := by
  induction fuel generalizing d with
  | zero => cases met
  | succ fuel ih =>
    obtain ⟨c, here, inside⟩ := List.mem_flatMap.mp met
    rcases List.mem_cons.mp inside with rfl | deeper
    · exact .child here
    · split at deeper
      · exact .under here (ih deeper)
      · cases deeper

section

variable (rising : ∀ d k, k ∈ kids d → d < k)
include rising

theorem Below.lt (below : Below kids d k) : d < k := by
  induction below with
  | child here => exact rising _ _ here
  | under here _ ih => exact Nat.lt_trans (rising _ _ here) ih

/-- What is below a place depends on the lists from there on. -/
theorem Below.transfer {kids' : Nat → List Nat} (below : Below kids d k)
    (same : ∀ m, d ≤ m → ∀ c ∈ kids m, c ∈ kids' m) : Below kids' d k := by
  induction below with
  | @child d k here => exact .child (same d (Nat.le_refl d) k here)
  | @under d c k here _ ih =>
    have higher := rising d c here
    refine .under (same d (Nat.le_refl d) c here) (ih ?_)
    intro m later
    exact same m (Nat.le_trans (Nat.le_of_lt higher) later)

/-- A walk that enters whatever has entries meets everything below. -/
theorem Below.mem_visit (entered : ∀ d, kids d ≠ [] → enter d = true) (below : Below kids d k)
    (enough : k ≤ d + fuel) : k ∈ visit kids enter fuel d := by
  induction below generalizing fuel with
  | @child d k here =>
    have higher := rising _ _ here
    obtain ⟨less, rfl⟩ : ∃ less, fuel = less + 1 := ⟨fuel - 1, by omega⟩
    exact List.mem_flatMap.mpr ⟨k, here, List.mem_cons_self⟩
  | @under d c k here deeper ih =>
    have higher := rising _ _ here
    have further := deeper.lt rising
    obtain ⟨less, rfl⟩ : ∃ less, fuel = less + 1 := ⟨fuel - 1, by omega⟩
    have filled : kids c ≠ [] := by
      cases deeper with
      | child inside => exact List.ne_nil_of_mem inside
      | under inside _ => exact List.ne_nil_of_mem inside
    refine List.mem_flatMap.mpr ⟨c, here, List.mem_cons_of_mem _ ?_⟩
    rw [if_pos (entered c filled)]
    exact ih (by omega)

end

end Walks

section Climbs

variable (up : Nat → Option Nat) (goal : Nat)

/-- The climb from a place along the parents comes past the goal. -/
def climbs : Nat → Nat → Bool
  | 0, k => k == goal
  | fuel + 1, k => k == goal || (up k).any (climbs fuel)

variable {up goal} {kids : Nat → List Nat} {k fuel : Nat}

theorem climbs_self : climbs up goal fuel goal = true := by
  cases fuel with
  | zero => exact beq_self_eq_true goal
  | succ fuel => rw [climbs, beq_self_eq_true, Bool.true_or]

theorem climbs_up {d : Nat} (parent : up k = some d) (later : climbs up goal fuel d = true) :
    climbs up goal (fuel + 1) k = true := by
  rw [climbs, parent, Option.any_some, later, Bool.or_true]

/-- A climb goes down in number. -/
theorem le_of_climbs (falling : ∀ k d, up k = some d → d < k)
    (arrives : climbs up goal fuel k = true) : goal ≤ k := by
  induction fuel generalizing k with
  | zero => exact Nat.le_of_eq (beq_iff_eq.mp arrives).symm
  | succ fuel ih =>
    rw [climbs, Bool.or_eq_true] at arrives
    rcases arrives with same | further
    · exact Nat.le_of_eq (beq_iff_eq.mp same).symm
    · obtain ⟨d, parent, later⟩ := (Option.any_eq_true _ _).mp further
      exact Nat.le_trans (ih later) (Nat.le_of_lt (falling k d parent))

/-- From below a place the climb comes past it. -/
theorem Below.climbs (parents : ∀ d k, k ∈ kids d → up k = some d)
    (falling : ∀ k d, up k = some d → d < k) (below : Below kids goal k) (enough : k ≤ fuel) :
    climbs up goal fuel k = true := by
  induction fuel generalizing k with
  | zero =>
    have higher := below.lt fun d k here => falling k d (parents d k here)
    omega
  | succ fuel ih =>
    rcases below.last with here | ⟨m, deeper, here⟩
    · exact climbs_up (parents goal k here) climbs_self
    · have lower := falling k m (parents m k here)
      exact climbs_up (parents m k here) (ih deeper (by omega))

/-- Where everything but the root has a parent, every climb ends at the root. -/
theorem climbs_root {there : Nat → Prop}
    (parent : ∀ k, there k → k ≠ 0 → ∃ d, up k = some d ∧ d < k ∧ there d) (present : there k)
    (enough : k ≤ fuel) : climbs up 0 fuel k = true := by
  induction fuel generalizing k with
  | zero =>
    obtain rfl : k = 0 := by omega
    exact climbs_self
  | succ fuel ih =>
    by_cases root : k = 0
    · subst root
      exact climbs_self
    · obtain ⟨d, above, lower, known⟩ := parent k present root
      exact climbs_up above (ih known (by omega))

end Climbs

end IcsOs.Lib.Forests
