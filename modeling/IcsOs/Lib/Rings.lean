/- GID: IcsOs/Lib/Rings
   generality: G
   digest: Circular doubly linked lists: rotation, insertion, removal, and the loop once around. -/

import Mathlib.Data.List.Nodup

set_option autoImplicit false

namespace IcsOs.Lib.Rings

open List

universe u v

variable {α : Type u} {σ : Type v}

section Paths

variable {R R' : α → α → Prop} {x y z : α} {s t : List α}

/-- Steps from one node through the nodes of a list to another node. -/
def Path (R : α → α → Prop) : α → List α → α → Prop
  | x, [], z => R x z
  | x, y :: t, z => R x y ∧ Path R y t z

/-- Steps through all nodes of a list and back to its first. -/
def Closed (R : α → α → Prop) : List α → Prop
  | [] => True
  | a :: t => Path R a t a

theorem path_append (s t : List α) : Path R x (s ++ y :: t) z ↔ Path R x s y ∧ Path R y t z := by
  induction s generalizing x with
  | nil => rfl
  | cons a s ih =>
    change R x a ∧ Path R a (s ++ y :: t) z ↔ (R x a ∧ Path R a s y) ∧ Path R y t z
    rw [ih, and_assoc]

theorem Path.mono (path : Path R x t z)
    (step : ∀ u ∈ x :: t, ∀ v ∈ t ++ [z], R u v → R' u v) : Path R' x t z := by
  induction t generalizing x with
  | nil => exact step x (by simp) z (by simp) path
  | cons y t ih =>
    refine ⟨step x (by simp) y (by simp) path.1, ih path.2 fun u fromY v toZ => ?_⟩
    exact step u (mem_cons_of_mem _ fromY) v (mem_cons_of_mem _ toZ)

theorem Path.first (path : Path R x t z) : ∃ y, R x y := by
  cases t with
  | nil => exact ⟨z, path⟩
  | cons y t => exact ⟨y, path.1⟩

theorem Path.last (path : Path R x t z) : ∃ y, R y z := by
  induction t generalizing x with
  | nil => exact ⟨x, path⟩
  | cons y t ih => exact ih path.2

/-- A cycle may be entered anywhere. -/
theorem Closed.rotate (closed : Closed R (s ++ t)) : Closed R (t ++ s) := by
  cases s with
  | nil => simpa using closed
  | cons a s =>
    cases t with
    | nil => simpa using closed
    | cons b t =>
      have halves := (path_append s t).mp closed
      exact (path_append t s).mpr ⟨halves.2, halves.1⟩

theorem Closed.enter (closed : Closed R (s ++ x :: t)) : Path R x (t ++ s) x :=
  closed.rotate

end Paths

section Linking

/-- The two link fields of all nodes. -/
structure Links (α : Type u) where
  next : α → Option α
  before : α → Option α

variable {k : Links α} {a b p x y z : α} {l t : List α}

def Links.Step (k : Links α) (x y : α) : Prop := k.next x = some y ∧ k.before y = some x

/-- The links make one cycle of the nodes of a list, and nothing else is linked. -/
structure Ring (k : Links α) (l : List α) : Prop where
  nodup : l.Nodup
  closed : Closed k.Step l
  outside : ∀ p, p ∉ l → k.next p = none ∧ k.before p = none

theorem Ring.rotate {s t : List α} (ring : Ring k (s ++ t)) : Ring k (t ++ s) where
  nodup := (perm_append_comm.nodup_iff).mp ring.nodup
  closed := ring.closed.rotate
  outside p not_ := ring.outside p fun there => not_ (by
    rw [mem_append] at there ⊢
    exact there.symm)

theorem Ring.enter (ring : Ring k l) (member : p ∈ l) :
    ∃ t, Ring k (p :: t) ∧ ∀ q, q ∈ p :: t ↔ q ∈ l := by
  obtain ⟨s, t, rfl⟩ := append_of_mem member
  refine ⟨t ++ s, ring.rotate, fun q => ?_⟩
  simp only [mem_cons, mem_append]
  tauto

variable [DecidableEq α]

/-- A node put in after another one. -/
def Links.insertAfter (k : Links α) (a b p : α) : Links α where
  next := Function.update (Function.update k.next a (some p)) p (some b)
  before := Function.update (Function.update k.before p (some a)) b (some p)

/-- A node of a cycle of its own. -/
def Links.alone (k : Links α) (p : α) : Links α where
  next := Function.update k.next p (some p)
  before := Function.update k.before p (some p)

/-- A node taken out from between two others. -/
def Links.bypass (k : Links α) (z b p : α) : Links α where
  next := Function.update (Function.update k.next z (some b)) p none
  before := Function.update (Function.update k.before b (some z)) p none

def Links.unlink (k : Links α) (p : α) : Links α where
  next := Function.update k.next p none
  before := Function.update k.before p none

theorem ring_alone (ring : Ring k []) (p : α) : Ring (k.alone p) [p] where
  nodup := nodup_singleton p
  closed := ⟨Function.update_self .., Function.update_self ..⟩
  outside q other := by
    have apart : q ≠ p := by simpa using other
    have free := ring.outside q (by simp)
    simp [Links.alone, apart, free]

theorem ring_insert (ring : Ring k (a :: t)) (fresh : p ∉ a :: t) (next : k.next a = some b) :
    Ring (k.insertAfter a b p) (a :: p :: t) := by
  have apart : p ≠ a := fun same => fresh (same ▸ mem_cons_self ..)
  have apart' : p ∉ t := fun there => fresh (mem_cons_of_mem _ there)
  have first : a ∉ t := (nodup_cons.mp ring.nodup).1
  refine ⟨?_, ?_, fun q other => ?_⟩
  · refine nodup_cons.mpr ⟨?_, nodup_cons.mpr ⟨apart', (nodup_cons.mp ring.nodup).2⟩⟩
    simpa [Ne.symm apart] using first
  · cases t with
    | nil =>
      have here : b = a := Option.some.inj (next.symm.trans ring.closed.1)
      subst here
      refine ⟨⟨?_, ?_⟩, ?_, ?_⟩ <;> simp [Links.insertAfter, apart, Ne.symm apart]
    | cons c u =>
      have here : b = c := Option.some.inj (next.symm.trans ring.closed.1.1)
      subst here
      have apartB : p ≠ b := fun same => apart' (same ▸ mem_cons_self ..)
      have firstB : a ≠ b := fun same => first (same ▸ mem_cons_self ..)
      refine ⟨⟨?_, ?_⟩, ⟨?_, ?_⟩, ?_⟩
      · simp [Links.insertAfter, Ne.symm apart]
      · simp [Links.insertAfter, apartB]
      · simp [Links.insertAfter]
      · simp [Links.insertAfter]
      apply ring.closed.2.mono
      rintro u fromB v toA ⟨forth, back⟩
      have notA : u ≠ a := fun same => first (same ▸ fromB)
      have notP : u ≠ p := fun same => apart' (same ▸ fromB)
      have uniqueB : b ∉ _ := (nodup_cons.mp (nodup_cons.mp ring.nodup).2).1
      have notB : v ≠ b := by
        rintro rfl
        rcases mem_append.mp toA with inside | final
        · exact uniqueB inside
        · exact firstB (mem_singleton.mp final).symm
      have notP' : v ≠ p := by
        rintro rfl
        rcases mem_append.mp toA with inside | final
        · exact apart' (mem_cons_of_mem _ inside)
        · exact apart (mem_singleton.mp final)
      exact ⟨by simpa [Links.insertAfter, notA, notP] using forth,
        by simpa [Links.insertAfter, notB, notP'] using back⟩
  · simp only [mem_cons, not_or] at other
    have notB : q ≠ b := by
      rintro rfl
      cases t with
      | nil => exact other.1 (Option.some.inj (next.symm.trans ring.closed.1))
      | cons c u =>
        exact other.2.2 (mem_cons.mpr (.inl
          (Option.some.inj (next.symm.trans ring.closed.1.1))))
    have free := ring.outside q (by simp [other.1, other.2.2])
    simp [Links.insertAfter, other.1, other.2.1, notB, free]

theorem ring_unlink_last (ring : Ring k [p]) : Ring (k.unlink p) [] where
  nodup := nodup_nil
  closed := trivial
  outside q _ := by
    by_cases here : q = p
    · subst here
      simp [Links.unlink]
    · have free := ring.outside q (by simpa using here)
      simp [Links.unlink, here, free]

theorem ring_unlink_outside (ring : Ring k l) (p : α) (free : p ∉ l) : k.unlink p = k := by
  obtain ⟨next, before⟩ := ring.outside p free
  unfold Links.unlink
  congr 1
  · rw [← next, Function.update_eq_self]
  · rw [← before, Function.update_eq_self]

theorem ring_bypass (ring : Ring k (p :: b :: t)) (back : k.before p = some z) :
    Ring (k.bypass z b p) (b :: t) := by
  obtain ⟨fresh, nodup⟩ := nodup_cons.mp ring.nodup
  have apart : b ≠ p := fun same => fresh (same ▸ mem_cons_self ..)
  have path : Path k.Step b t p := ring.closed.2
  refine ⟨nodup, ?_, fun q other => ?_⟩
  · change Path (k.bypass z b p).Step b t b
    rcases eq_nil_or_concat t with rfl | ⟨s, c, rfl⟩
    · have here : z = b := Option.some.inj (back.symm.trans path.2)
      subst here
      exact ⟨by simp [Links.bypass, apart], by simp [Links.bypass, apart]⟩
    rw [concat_eq_append] at path fresh nodup ⊢
    obtain ⟨inner, final⟩ := (path_append s []).mp path
    have here : z = c := Option.some.inj (back.symm.trans final.2)
    subst here
    have apartZ : z ≠ p := fun same => fresh (by simp [same])
    have nodupS := nodup_cons.mp nodup
    have apartS : z ∉ s := fun there => by
      have := (nodup_append.mp nodupS.2).2.2 z there z (by simp)
      exact this rfl
    refine (path_append s []).mpr ⟨inner.mono ?_, ?_⟩
    · rintro u fromB v toZ ⟨forth, backward⟩
      have notP : u ≠ p := by
        rintro rfl
        apply fresh
        rcases mem_cons.mp fromB with same | there
        · exact absurd same.symm apart
        · simp [there]
      have notZ : u ≠ z := by
        rintro rfl
        rcases mem_cons.mp fromB with same | there
        · exact nodupS.1 (by simp [← same])
        · exact apartS there
      have notP' : v ≠ p := by
        rintro rfl
        exact fresh (mem_cons_of_mem _ toZ)
      have notB : v ≠ b := by
        rintro rfl
        exact nodupS.1 toZ
      exact ⟨by simpa [Links.bypass, notP, notZ] using forth,
        by simpa [Links.bypass, notP', notB] using backward⟩
    · exact ⟨by simp [Links.bypass, apartZ], by simp [Links.bypass, apart]⟩
  · by_cases gone : q = p
    · subst gone
      simp [Links.bypass]
    simp only [mem_cons, not_or] at other
    have free := ring.outside q (by simp [gone, other.1, other.2])
    have notZ : q ≠ z := by
      rintro rfl
      obtain ⟨y, step⟩ := path.last
      have same : q = y := Option.some.inj (back.symm.trans step.2)
      rw [same, step.1] at free
      cases free.1
    simp [Links.bypass, gone, notZ, other.1, free]

end Linking

section Walking

/-- A `do … while` once around, until told to stop, without a next node, out of moves or back. -/
def walk (next : α → Option α) [DecidableEq α] (visit : σ → α → σ × Bool) (start : α) :
    Nat → α → σ → σ
  | 0, ptr, s => (visit s ptr).1
  | room + 1, ptr, s =>
    if (visit s ptr).2 = false then (visit s ptr).1
    else
      match next ptr with
      | none => (visit s ptr).1
      | some nx =>
        if nx = start then (visit s ptr).1 else walk next visit start room nx (visit s ptr).1

/-- Visiting the nodes of a list in turn. -/
def visitAll (visit : σ → α → σ × Bool) : σ → List α → σ
  | s, [] => s
  | s, a :: t => if (visit s a).2 = false then (visit s a).1 else visitAll visit (visit s a).1 t

variable [DecidableEq α] {k : Links α}

/-- With moves enough the loop visits the cycle. -/
theorem walk_eq (visit : σ → α → σ × Bool) {start : α} (t : List α) :
    ∀ (ptr : α) (room : Nat) (s : σ), Path k.Step ptr t start → start ∉ t → t.length < room →
      walk k.next visit start room ptr s = visitAll visit s (ptr :: t) := by
  induction t with
  | nil =>
    intro ptr room s path _ enough
    obtain ⟨room, rfl⟩ : ∃ r, room = r + 1 := ⟨room - 1, by simp at enough; omega⟩
    rw [walk, path.1]
    simp [visitAll]
  | cons y t ih =>
    intro ptr room s path apart enough
    simp only [length_cons] at enough
    obtain ⟨room, rfl⟩ : ∃ r, room = r + 1 := ⟨room - 1, by omega⟩
    simp only [mem_cons, not_or] at apart
    rw [walk, visitAll, path.1.1]
    dsimp only
    rw [if_neg (Ne.symm apart.1), ih y room _ path.2 apart.2 (by omega)]

end Walking

end IcsOs.Lib.Rings
