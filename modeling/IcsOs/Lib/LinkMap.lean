/- GID: IcsOs/Lib/LinkMap
   generality: G
   digest: Disjoint chains in a link map whose other cells are free. -/

import Mathlib.Data.List.Chain
import Mathlib.Data.List.Nodup
import Mathlib.Data.Set.Basic

set_option autoImplicit false

namespace IcsOs.Lib.LinkMap

open Function List

universe u v

/-- Cells, the links that end a chain, and the one that marks a free cell. -/
structure Cells (α : Type u) where
  cells : Set α
  ends : Set α
  free : α
  free_cell : free ∉ cells
  free_end : free ∉ ends

variable {α : Type u} {ι : Type v} {K : Cells α} {next next' : α → α} {l l' : List α} {c : α}

/-- The links lead along the chain's cells, and the last one ends. -/
structure Owned (K : Cells α) (next : α → α) (l : List α) : Prop where
  links : l.IsChain fun a b => next a = b
  last : ∀ c ∈ l.getLast?, next c ∈ K.ends
  inside : ∀ c ∈ l, c ∈ K.cells
  nodup : l.Nodup

theorem Owned.nil (K : Cells α) (next : α → α) : Owned K next [] where
  links := .nil
  last := by simp
  inside := by simp
  nodup := .nil

theorem Owned.tail {a : α} (owned : Owned K next (a :: l)) : Owned K next l where
  links := owned.links.tail
  last := by
    intro c isLast
    refine owned.last c ?_
    cases l with
    | nil => cases isLast
    | cons b rest => rwa [getLast?_cons_cons]
  inside := fun c member => owned.inside c (mem_cons_of_mem a member)
  nodup := owned.nodup.of_cons

theorem Owned.next_ne_free (owned : Owned K next l) (member : c ∈ l) : next c ≠ K.free := by
  induction l with
  | nil => cases member
  | cons a rest step =>
    rcases mem_cons.1 member with rfl | later
    · cases rest with
      | nil =>
        intro isFree
        exact K.free_end (isFree ▸ owned.last c rfl)
      | cons b rest =>
        have link : next c = b := (isChain_cons_cons.1 owned.links).1
        intro isFree
        have inside := owned.inside b (by simp)
        rw [← link, isFree] at inside
        exact K.free_cell inside
    · exact step owned.tail later

theorem links_congr (nodup : l.Nodup)
    (same : ∀ c ∈ l, c ∉ l.getLast? → next' c = next c)
    (links : l.IsChain fun a b => next a = b) : l.IsChain fun a b => next' a = b := by
  induction l with
  | nil => exact .nil
  | cons a rest step =>
    cases rest with
    | nil => exact .singleton a
    | cons b rest =>
      have link := isChain_cons_cons.1 links
      refine isChain_cons_cons.2 ⟨?_, ?_⟩
      · have inner : a ∉ (a :: b :: rest).getLast? := by
          intro isLast
          rw [getLast?_cons_cons] at isLast
          exact (nodup_cons.1 nodup).1 (mem_of_getLast? isLast)
        rw [same a (by simp) inner]
        exact link.1
      · refine step (nodup_cons.1 nodup).2 ?_ link.2
        intro c member inner
        refine same c (mem_cons_of_mem a member) ?_
        rwa [getLast?_cons_cons]

theorem Owned.congr (owned : Owned K next l) (same : ∀ c ∈ l, next' c = next c) :
    Owned K next' l where
  __ := owned
  links := links_congr owned.nodup (fun c member _ => same c member) owned.links
  last := by
    intro c isLast
    rw [same c (mem_of_getLast? isLast)]
    exact owned.last c isLast

/-- Disjoint chains, one for each owner; every other cell is free. -/
structure Forest (K : Cells α) (next : α → α) (chains : ι → List α) : Prop where
  owned : ∀ o, Owned K next (chains o)
  apart : ∀ o o', o ≠ o' → ∀ c ∈ chains o, c ∉ chains o'
  rest : ∀ c ∈ K.cells, (∀ o, c ∉ chains o) → next c = K.free

/-- One owner's chain takes cells that were free, and those it gives up become free. -/
theorem Forest.replace [DecidableEq ι] {chains : ι → List α} (forest : Forest K next chains)
    (o : ι) (owned : Owned K next' l) (other : ∀ c, c ∉ chains o → c ∉ l → next' c = next c)
    (taken : ∀ c ∈ l, c ∈ chains o ∨ next c = K.free)
    (given : ∀ c ∈ chains o, c ∉ l → next' c = K.free) :
    Forest K next' (update chains o l) := by
  -- a cell of another chain is neither in the old chain of the owner nor free
  have foreign : ∀ o', o' ≠ o → ∀ c ∈ chains o', c ∉ chains o ∧ c ∉ l := by
    intro o' another c member
    have old := forest.apart o' o another c member
    refine ⟨old, fun new => ?_⟩
    rcases taken c new with before | isFree
    · exact old before
    · exact (forest.owned o').next_ne_free member isFree
  refine ⟨?_, ?_, ?_⟩
  · intro o'
    by_cases same : o' = o
    · subst same
      rwa [update_self]
    rw [update_of_ne same]
    refine (forest.owned o').congr fun c member => ?_
    obtain ⟨old, new⟩ := foreign o' same c member
    exact other c old new
  · intro o₁ o₂ different c first second
    by_cases here : o₁ = o
    · subst here
      rw [update_self] at first
      rw [update_of_ne (Ne.symm different)] at second
      exact (foreign o₂ (Ne.symm different) c second).2 first
    rw [update_of_ne here] at first
    by_cases there : o₂ = o
    · subst there
      rw [update_self] at second
      exact (foreign o₁ here c first).2 second
    · rw [update_of_ne there] at second
      exact forest.apart o₁ o₂ different c first second
  · intro c cell outside
    have notNew : c ∉ l := by
      have here := outside o
      rwa [update_self] at here
    by_cases old : c ∈ chains o
    · exact given c old notNew
    rw [other c old notNew]
    refine forest.rest c cell fun o' => ?_
    by_cases same : o' = o
    · rwa [same]
    · have there := outside o'
      rwa [update_of_ne same] at there

end IcsOs.Lib.LinkMap
