/- GID: IcsOs/Lib/Intrusive
   generality: G
   digest: Lists threaded through the nodes they hold, and when a run of pushes builds one. -/

import Mathlib.Data.List.Nodup
import Mathlib.Data.List.Induction

set_option autoImplicit false

namespace IcsOs.Lib.Intrusive

open List

universe u v

variable {α : Type u}

/-- Following `link` from the given node meets the listed nodes in order and then `null`. -/
def Linked (link : α → α) (null : α) : α → List α → Prop
  | head, [] => head = null
  | head, node :: rest => head = node ∧ node ≠ null ∧ Linked link null (link node) rest

variable {link link' : α → α} {null head : α} {nodes : List α}

theorem Linked.congr (threaded : Linked link null head nodes)
    (same : ∀ node ∈ nodes, link' node = link node) : Linked link' null head nodes := by
  induction nodes generalizing head with
  | nil => exact threaded
  | cons node rest ih =>
    obtain ⟨first, real, tail⟩ := threaded
    refine ⟨first, real, ?_⟩
    rw [same node mem_cons_self]
    exact ih tail fun other member => same other (mem_cons_of_mem _ member)

/-- A node off the list is put in front by pointing it at the old head. -/
theorem Linked.push {node : α} (threaded : Linked link null head nodes) (real : node ≠ null)
    (points : link' node = head) (same : ∀ other ∈ nodes, link' other = link other) :
    Linked link' null node (node :: nodes) := by
  refine ⟨rfl, real, ?_⟩
  rw [points]
  exact threaded.congr same

theorem Linked.null_of_nil (threaded : Linked link null head []) : head = null := threaded

/-- A head other than `null` is the first node listed. -/
theorem Linked.pop (threaded : Linked link null head nodes) (real : head ≠ null) :
    ∃ rest, nodes = head :: rest ∧ Linked link null (link head) rest := by
  cases nodes with
  | nil => exact absurd threaded real
  | cons node rest =>
    obtain ⟨first, _, tail⟩ := threaded
    subst first
    exact ⟨rest, rfl, tail⟩

section Pushes

/-! A machine whose states hold a head and links, and which can push a node. -/

variable {σ : Type v} (links : σ → α → α) (front : σ → α) (push : σ → α → σ)
  (Node : α → Prop)

/-- The node becomes the head and points at the old one. -/
structure Pushes (null : α) : Prop where
  front_push : ∀ s node, Node node → front (push s node) = node
  points : ∀ s node, Node node → front s = null ∨ Node (front s) →
    links (push s node) node = front s
  same : ∀ s node other, Node node → Node other → other ≠ node →
    links (push s node) other = links s other
  real : ∀ node, Node node → node ≠ null

variable {links front push Node} {s : σ}

section

variable (spec : Pushes links front push Node null)
include spec

theorem Pushes.front_valid (empty : front s = null) (pushed : List α)
    (valid : ∀ node ∈ pushed, Node node) :
    front (pushed.foldl push s) = null ∨ Node (front (pushed.foldl push s)) := by
  induction pushed using reverseRecOn with
  | nil => exact Or.inl empty
  | append_singleton earlier last _ =>
    have lastNode : Node last := valid last (by simp)
    right
    rw [foldl_append, foldl_cons, foldl_nil, spec.front_push _ _ lastNode]
    exact lastNode

/-- A list without repetitions found after a run of pushes is the pushed nodes, latest first. -/
theorem Pushes.linked_eq (empty : front s = null) (pushed nodes : List α)
    (valid : ∀ node ∈ pushed, Node node) (listed : ∀ node ∈ nodes, Node node)
    (nodup : nodes.Nodup)
    (threaded : Linked (links (pushed.foldl push s)) null (front (pushed.foldl push s)) nodes) :
    nodes = pushed.reverse := by
  induction pushed using reverseRecOn generalizing nodes with
  | nil =>
    cases nodes with
    | nil => rfl
    | cons node rest => exact absurd (threaded.1.symm.trans empty) threaded.2.1
  | append_singleton earlier last ih =>
    have lastNode : Node last := valid last (by simp)
    have earlierNode : ∀ node ∈ earlier, Node node := fun node member =>
      valid node (by simp [member])
    rw [foldl_append, foldl_cons, foldl_nil,
      spec.front_push _ _ lastNode] at threaded
    obtain ⟨rest, rfl, tail⟩ := threaded.pop (spec.real _ lastNode)
    obtain ⟨fresh, restNodup⟩ := nodup_cons.mp nodup
    have restNode : ∀ node ∈ rest, Node node := fun node member =>
      listed node (mem_cons_of_mem _ member)
    -- the last node does not occur further on, so those links are the ones before its push
    have before : Linked (links (earlier.foldl push s)) null
        (front (earlier.foldl push s)) rest := by
      rw [spec.points _ _ lastNode (spec.front_valid empty earlier earlierNode)] at tail
      apply tail.congr
      intro node member
      have apart : node ≠ last := fun same => fresh (same ▸ member)
      exact (spec.same _ _ _ lastNode (restNode node member) apart).symm
    rw [ih rest earlierNode restNode restNodup before]
    simp

/-- Pushing distinct nodes threads all of them. -/
theorem Pushes.linked_of_nodup (empty : front s = null) (pushed : List α)
    (valid : ∀ node ∈ pushed, Node node) (nodup : pushed.Nodup) :
    Linked (links (pushed.foldl push s)) null (front (pushed.foldl push s)) pushed.reverse := by
  induction pushed using reverseRecOn with
  | nil => exact empty
  | append_singleton earlier last ih =>
    have lastNode : Node last := valid last (by simp)
    have earlierNode : ∀ node ∈ earlier, Node node := fun node member =>
      valid node (by simp [member])
    obtain ⟨earlierNodup, -, apart⟩ := nodup_append.mp nodup
    rw [foldl_append, foldl_cons, foldl_nil, reverse_append,
      reverse_singleton, singleton_append, spec.front_push _ _ lastNode]
    apply (ih earlierNode earlierNodup).push (spec.real _ lastNode)
      (spec.points _ _ lastNode (spec.front_valid empty earlier earlierNode))
    intro other member
    have inEarlier : other ∈ earlier := mem_reverse.mp member
    exact spec.same _ _ _ lastNode (earlierNode other inEarlier)
      (apart other inEarlier last (by simp))

end

end Pushes

end IcsOs.Lib.Intrusive
