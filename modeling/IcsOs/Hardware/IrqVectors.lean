/- GID: IcsOs/Hardware/IrqVectors
   generality: I
   source: kernel/hardware/irq_lifecycle.h, kernel/hardware/irq_lifecycle.c
   digest: Owners of interrupt vectors, the handlers inside, and releases that wait for them. -/

import Mathlib.Algebra.Group.Nat.Defs
import Mathlib.Data.List.FinRange
import IcsOs.Lib.Runs

set_option autoImplicit false

namespace IcsOs.Hardware.IrqVectors

open Function List
open Lib.Runs

/-- The state of a vector; owner 0 is the null pointer. -/
structure VectorState where
  owner : Nat
  active : Nat
  releasing : Bool
  reserved : Bool
  deriving DecidableEq

def irqVectorStateClaim (state : VectorState) (owner : Nat) : Option VectorState :=
  if owner = 0 ∨ state.owner ≠ 0 then none else some ⟨owner, 0, false, false⟩

def irqVectorStateReserve (state : VectorState) (owner : Nat) : Option VectorState :=
  if owner = 0 ∨ state.owner ≠ 0 then none else some ⟨owner, 0, false, true⟩

def irqVectorStateUnreserve (state : VectorState) (owner : Nat) : Option VectorState :=
  if state.owner ≠ owner ∨ state.reserved = false ∨ state.active ≠ 0 ∨ state.releasing = true then
    none
  else some { state with owner := 0, reserved := false }

def irqVectorStateEnter (state : VectorState) (owner : Nat) : Option VectorState :=
  if state.owner ≠ owner ∨ state.releasing = true ∨ state.reserved = true then none
  else some { state with active := (state.active + 1) % 2 ^ 32 }

def irqVectorStateExit (state : VectorState) (owner : Nat) : Option VectorState :=
  if state.owner ≠ owner ∨ state.active = 0 then none
  else some { state with active := state.active - 1 }

def irqVectorStateBeginRelease (state : VectorState) (owner : Nat) : Option VectorState :=
  if state.owner ≠ owner ∨ state.releasing = true ∨ state.reserved = true then none
  else some { state with releasing := true }

def irqVectorStateFinishRelease (state : VectorState) (owner : Nat) : Option VectorState :=
  if state.owner ≠ owner ∨ state.releasing = false ∨ state.active ≠ 0 then none
  else some { state with owner := 0, releasing := false }

abbrev Vectors := Fin 256 → VectorState

/-- The first vector of the range that can be claimed. -/
def irqVectorStateAllocate (states : Vectors) (first last : Fin 256) (owner : Nat) :
    Option (Fin 256 × VectorState) :=
  (List.finRange 256).findSome? fun current =>
    if first ≤ current ∧ current ≤ last then
      (irqVectorStateClaim (states current) owner).map fun state => (current, state)
    else none

def irqVectorValid (vector : Fin 256) : Bool := 0x42 ≤ vector.val && vector.val ≤ 0xEF

def irqDomainValid (first last : Fin 256) : Bool :=
  0x42 ≤ first.val && first ≤ last && last.val ≤ 0xEF

/-- The vectors, the handlers inside, waiting releases, and whether one has begun or given up. -/
structure World where
  vectors : Vectors
  inside : List (Fin 256 × Nat)
  waiting : List (Fin 256 × Nat)
  begun : Fin 256 → Bool
  gaveUp : Fin 256 → Bool

/-- Sections under the table's lock; a release is two, with a wait between. -/
inductive Act
  | claim (vector : Fin 256) (owner : Nat)
  | allocate (first last : Fin 256) (owner : Nat)
  | reserve (vector : Fin 256) (owner : Nat)
  | unreserve (vector : Fin 256) (owner : Nat)
  | enter (vector : Fin 256) (owner : Nat)
  | exit (vector : Fin 256) (owner : Nat)
  | beginRelease (vector : Fin 256) (owner : Nat)
  | finishRelease (vector : Fin 256) (owner : Nat)

def World.set (w : World) (vector : Fin 256) (state : VectorState) : World :=
  { w with vectors := Function.update w.vectors vector state }

/-- A handler goes in. -/
def World.enlist (w : World) (vector : Fin 256) (owner : Nat) : World :=
  { w with inside := (vector, owner) :: w.inside }

/-- A handler goes out. -/
def World.dismiss (w : World) (vector : Fin 256) (owner : Nat) : World :=
  { w with inside := w.inside.erase (vector, owner) }

/-- A release has begun and waits for the handlers. -/
def World.await (w : World) (vector : Fin 256) (owner : Nat) : World :=
  { w with
    waiting := (vector, owner) :: w.waiting
    begun := Function.update w.begun vector true }

/-- A release returns, with success or not. -/
def World.conclude (w : World) (vector : Fin 256) (owner : Nat) (released : Bool) : World :=
  { w with
    waiting := w.waiting.erase (vector, owner)
    begun := Function.update w.begun vector (!released)
    gaveUp := Function.update w.gaveUp vector (!released) }

def perform (w : World) : Act → World
  | .claim v o =>
    match if irqVectorValid v then irqVectorStateClaim (w.vectors v) o else none with
    | none => w
    | some state => w.set v state
  | .allocate first last o =>
    match if irqDomainValid first last then irqVectorStateAllocate w.vectors first last o
      else none with
    | none => w
    | some (v, state) => w.set v state
  | .reserve v o =>
    match if irqVectorValid v then irqVectorStateReserve (w.vectors v) o else none with
    | none => w
    | some state => w.set v state
  | .unreserve v o =>
    match if irqVectorValid v then irqVectorStateUnreserve (w.vectors v) o else none with
    | none => w
    | some state => w.set v state
  | .enter v o =>
    match if irqVectorValid v then irqVectorStateEnter (w.vectors v) o else none with
    | none => w
    | some state => (w.set v state).enlist v o
  | .exit v o =>
    match if irqVectorValid v then irqVectorStateExit (w.vectors v) o else none with
    | none => w
    | some state => (w.set v state).dismiss v o
  | .beginRelease v o =>
    match if irqVectorValid v then irqVectorStateBeginRelease (w.vectors v) o else none with
    | none => w
    | some state => (w.set v state).await v o
  | .finishRelease v o =>
    match irqVectorStateFinishRelease (w.vectors v) o with
    | none => w.conclude v o false
    | some state => (w.set v state).conclude v o true

def Possible (w : World) : Act → Prop
  | .finishRelease v o => (v, o) ∈ w.waiting
  | _ => True

/-- No vector has an owner at first. -/
def idle : World where
  vectors _ := ⟨0, 0, false, false⟩
  inside := []
  waiting := []
  begun _ := false
  gaveUp _ := false

def vectors : System World Act where
  start w := w = idle
  step w a w' := Possible w a ∧ w' = perform w a

def Gives (w : World) (a : Act) (v : Fin 256) : Prop :=
  ((perform w a).vectors v).owner ≠ (w.vectors v).owner ∧ ((perform w a).vectors v).owner ≠ 0

/-- The active count is that of the owner's handlers inside; a vector is given away without handlers
and not entered once a release has begun; an allocated one had no owner; and after a release that
gave up another one succeeds. -/
structure Orderly (w : World) : Prop where
  counted : ∀ v, (w.vectors v).active = w.inside.count (v, (w.vectors v).owner)
  owned : ∀ v o, (v, o) ∈ w.inside → (w.vectors v).owner = o
  given : ∀ a v, Gives w a v → (w.vectors v).owner = 0 ∧ ∀ o, (v, o) ∉ w.inside
  closed : ∀ v o, w.begun v = true → irqVectorStateEnter (w.vectors v) o = none
  allocated : ∀ first last o v state, irqVectorStateAllocate w.vectors first last o =
    some (v, state) → (w.vectors v).owner = 0 ∧ state.owner = o
  repeatable : ∀ v, w.gaveUp v = true → (w.vectors v).active = 0 →
    ∃ state, irqVectorStateBeginRelease (w.vectors v) (w.vectors v).owner = some state ∧
      ∃ state', irqVectorStateFinishRelease state (w.vectors v).owner = some state'

/-- Calls have an owner; handlers leave where they are, fewer than 2^32 are inside, and a release
stops waiting when none is left. -/
def Careful (w : World) : Act → Prop
  | .enter v o => o ≠ 0 ∧ (w.vectors v).active + 1 < 2 ^ 32
  | .exit v o => (v, o) ∈ w.inside
  | .beginRelease _ o => o ≠ 0
  | .finishRelease v _ => (w.vectors v).active = 0
  | _ => True

section Functions

variable {state state' : VectorState} {o : Nat}

theorem claim_spec (done : irqVectorStateClaim state o = some state') :
    o ≠ 0 ∧ state.owner = 0 ∧ state' = ⟨o, 0, false, false⟩ := by
  unfold irqVectorStateClaim at done
  split_ifs at done with refused
  rw [not_or, not_not] at refused
  exact ⟨refused.1, refused.2, (Option.some.inj done).symm⟩

theorem reserve_spec (done : irqVectorStateReserve state o = some state') :
    o ≠ 0 ∧ state.owner = 0 ∧ state' = ⟨o, 0, false, true⟩ := by
  unfold irqVectorStateReserve at done
  split_ifs at done with refused
  rw [not_or, not_not] at refused
  exact ⟨refused.1, refused.2, (Option.some.inj done).symm⟩

theorem unreserve_spec (done : irqVectorStateUnreserve state o = some state') :
    state.owner = o ∧ state.active = 0 ∧ state.releasing = false ∧
      state' = { state with owner := 0, reserved := false } := by
  unfold irqVectorStateUnreserve at done
  split_ifs at done with refused
  simp only [not_or, not_not, Bool.not_eq_true] at refused
  exact ⟨refused.1, refused.2.2.1, refused.2.2.2, (Option.some.inj done).symm⟩

theorem enter_spec (done : irqVectorStateEnter state o = some state') :
    state.owner = o ∧ state.releasing = false ∧
      state' = { state with active := (state.active + 1) % 2 ^ 32 } := by
  unfold irqVectorStateEnter at done
  split_ifs at done with refused
  simp only [not_or, not_not, Bool.not_eq_true] at refused
  exact ⟨refused.1, refused.2.1, (Option.some.inj done).symm⟩

theorem exit_spec (done : irqVectorStateExit state o = some state') :
    state.owner = o ∧ state.active ≠ 0 ∧ state' = { state with active := state.active - 1 } := by
  unfold irqVectorStateExit at done
  split_ifs at done with refused
  simp only [not_or, not_not] at refused
  exact ⟨refused.1, refused.2, (Option.some.inj done).symm⟩

theorem beginRelease_spec (done : irqVectorStateBeginRelease state o = some state') :
    state.owner = o ∧ state.releasing = false ∧ state' = { state with releasing := true } := by
  unfold irqVectorStateBeginRelease at done
  split_ifs at done with refused
  simp only [not_or, not_not, Bool.not_eq_true] at refused
  exact ⟨refused.1, refused.2.1, (Option.some.inj done).symm⟩

theorem finishRelease_spec (done : irqVectorStateFinishRelease state o = some state') :
    state.owner = o ∧ state.active = 0 ∧
      state' = { state with owner := 0, releasing := false } := by
  unfold irqVectorStateFinishRelease at done
  split_ifs at done with refused
  simp only [not_or, not_not, Bool.not_eq_false] at refused
  exact ⟨refused.1, refused.2.2, (Option.some.inj done).symm⟩

theorem finishRelease_succeeds (owner : state.owner = o) (releasing : state.releasing = true)
    (quiet : state.active = 0) :
    irqVectorStateFinishRelease state o = some { state with owner := 0, releasing := false } := by
  unfold irqVectorStateFinishRelease
  simp [owner, releasing, quiet]

theorem allocate_spec {states : Vectors} {first last v : Fin 256}
    (done : irqVectorStateAllocate states first last o = some (v, state)) :
    irqVectorStateClaim (states v) o = some state := by
  obtain ⟨current, -, claimed⟩ := exists_of_findSome?_eq_some done
  split_ifs at claimed
  obtain ⟨state', here, same⟩ := Option.map_eq_some_iff.1 claimed
  cases same
  exact here

end Functions

/-- One vector: its count, handlers and releases, and none gave up. -/
structure Fine (v : Fin 256) (state : VectorState) (inside waiting : List (Fin 256 × Nat))
    (begun gaveUp : Bool) : Prop where
  counted : state.active = inside.count (v, state.owner)
  owned : ∀ o, (v, o) ∈ inside → state.owner = o ∧ o ≠ 0
  begun : begun = state.releasing
  waits : ∀ o, (v, o) ∈ waiting → state.owner = o ∧ state.releasing = true
  free : state.owner = 0 → state.releasing = false
  succeeded : gaveUp = false

/-- Every vector is fine, and no two releases wait for one. -/
structure Kept (w : World) : Prop where
  fine : ∀ v, Fine v (w.vectors v) w.inside w.waiting (w.begun v) (w.gaveUp v)
  once : (w.waiting.map Prod.fst).Nodup

section Steps

variable {w : World} {v u : Fin 256} {o : Nat} {state state' : VectorState}
  {inside inside' waiting waiting' : List (Fin 256 × Nat)} {begun gaveUp : Bool}

section

variable (fine : Fine v state inside waiting begun gaveUp)
include fine

theorem Fine.frame (handlers : ∀ o, inside'.count (v, o) = inside.count (v, o))
    (releases : ∀ o, (v, o) ∈ waiting' → (v, o) ∈ waiting) :
    Fine v state inside' waiting' begun gaveUp where
  __ := fine
  counted := by
    rw [handlers]
    exact fine.counted
  owned := by
    intro o member
    refine fine.owned o ?_
    rw [← count_pos_iff, handlers] at *
    exact member
  waits := fun o member => fine.waits o (releases o member)

/-- A vector without owner has no handlers. -/
theorem Fine.empty (free : state.owner = 0) : ∀ o, (v, o) ∉ inside := by
  intro o member
  obtain ⟨owner, some_⟩ := fine.owned o member
  exact some_ (owner.symm.trans free)

/-- Neither has one whose count is 0. -/
theorem Fine.quiet (quiet : state.active = 0) : ∀ o, (v, o) ∉ inside := by
  intro o member
  have count := fine.counted
  rw [(fine.owned o member).1, quiet] at count
  exact absurd (count_pos_iff.2 member) (by omega)

end

theorem count_other (l : List (Fin 256 × Nat)) (different : u ≠ v) (o o' : Nat) :
    ((v, o) :: l).count (u, o') = l.count (u, o') :=
  count_cons_of_ne fun same => different (congrArg Prod.fst same).symm

theorem count_erase_other (l : List (Fin 256 × Nat)) (different : u ≠ v) (o o' : Nat) :
    (l.erase (v, o)).count (u, o') = l.count (u, o') :=
  count_erase_of_ne fun same => different (congrArg Prod.fst same)

theorem set_here (w : World) (v : Fin 256) (state : VectorState) :
    (w.set v state).vectors v = state := by
  unfold World.set
  dsimp only
  rw [update_self]

theorem set_other (w : World) (state : VectorState) (different : u ≠ v) :
    (w.set v state).vectors u = w.vectors u := by
  unfold World.set
  dsimp only
  rw [update_of_ne different]

section

variable (kept : Kept w)
include kept

/-- A step at one vector that leaves handlers and releases. -/
theorem Kept.set (here : Fine v state w.inside w.waiting (w.begun v) (w.gaveUp v)) :
    Kept (w.set v state) := by
  refine ⟨?_, kept.once⟩
  intro u
  by_cases same : u = v
  · subst same
    rw [set_here]
    exact here
  · rw [set_other w state same]
    exact kept.fine u

theorem kept_take (free : (w.vectors v).owner = 0) (some_ : o ≠ 0) (reserved : Bool) :
    Kept (w.set v ⟨o, 0, false, reserved⟩) := by
  have old := kept.fine v
  have empty := old.empty free
  refine kept.set ⟨?_, ?_, ?_, ?_, ?_, old.succeeded⟩
  · exact (count_eq_zero_of_not_mem (empty o)).symm
  · intro o' member
    exact absurd member (empty o')
  · rw [old.begun, old.free free]
  · intro o' member
    obtain ⟨-, releasing⟩ := old.waits o' member
    exact absurd (old.free free) (by rw [releasing]; decide)
  · intro none_
    exact absurd none_ some_

theorem kept_unreserve (done : irqVectorStateUnreserve (w.vectors v) o = some state) :
    Kept (w.set v state) := by
  obtain ⟨owner, quiet, still, rfl⟩ := unreserve_spec done
  have old := kept.fine v
  have empty := old.quiet quiet
  refine kept.set ⟨?_, ?_, old.begun, ?_, fun _ => still, old.succeeded⟩
  · exact quiet.trans (count_eq_zero_of_not_mem (empty 0)).symm
  · intro o' member
    exact absurd member (empty o')
  · intro o' member
    obtain ⟨-, releasing⟩ := old.waits o' member
    exact absurd still (by rw [releasing]; decide)

theorem kept_enter (some_ : o ≠ 0) (few : (w.vectors v).active + 1 < 2 ^ 32)
    (done : irqVectorStateEnter (w.vectors v) o = some state) :
    Kept ((w.set v state).enlist v o) := by
  obtain ⟨owner, still, rfl⟩ := enter_spec done
  have old := kept.fine v
  refine ⟨?_, kept.once⟩
  intro u
  unfold World.enlist
  by_cases same : u = v
  · subst same
    rw [set_here]
    refine { old with counted := ?_, owned := ?_ }
    · have count := old.counted
      rw [owner] at count ⊢
      rw [count_cons_self, Nat.mod_eq_of_lt few, count]
      rfl
    intro o' member
    rcases mem_cons.1 member with new | before
    · obtain rfl : o' = o := congrArg Prod.snd new
      exact ⟨owner, some_⟩
    · exact old.owned o' before
  · rw [set_other w _ same]
    exact (kept.fine u).frame (count_other w.inside same o) fun _ member => member

theorem kept_exit (member : (v, o) ∈ w.inside)
    (done : irqVectorStateExit (w.vectors v) o = some state) :
    Kept ((w.set v state).dismiss v o) := by
  obtain ⟨owner, -, rfl⟩ := exit_spec done
  have old := kept.fine v
  refine ⟨?_, kept.once⟩
  intro u
  unfold World.dismiss
  by_cases same : u = v
  · subst same
    rw [set_here]
    refine { old with counted := ?_, owned := ?_ }
    · have count := old.counted
      rw [owner] at count ⊢
      rw [count, count_erase_self]
      rfl
    · intro o' later
      exact old.owned o' (mem_of_mem_erase later)
  · rw [set_other w _ same]
    exact (kept.fine u).frame (count_erase_other w.inside same o) fun _ later => later

theorem kept_begin (some_ : o ≠ 0)
    (done : irqVectorStateBeginRelease (w.vectors v) o = some state) :
    Kept ((w.set v state).await v o) := by
  obtain ⟨owner, still, rfl⟩ := beginRelease_spec done
  have old := kept.fine v
  refine ⟨?_, ?_⟩
  · intro u
    unfold World.await
    dsimp only
    by_cases same : u = v
    · subst same
      rw [set_here, update_self]
      refine ⟨old.counted, old.owned, rfl, ?_, ?_, old.succeeded⟩
      · intro o' member
        rcases mem_cons.1 member with new | before
        · obtain rfl : o' = o := congrArg Prod.snd new
          exact ⟨owner, rfl⟩
        · exact ⟨(old.waits o' before).1, rfl⟩
      · intro none_
        exact absurd (owner.symm.trans none_) some_
    · rw [set_other w _ same, update_of_ne same]
      refine (kept.fine u).frame (fun _ => rfl) fun o' member => ?_
      rcases mem_cons.1 member with new | before
      · exact absurd (congrArg Prod.fst new) same
      · exact before
  · -- a release that waited already would have set the flag
    refine nodup_cons.2 ⟨?_, kept.once⟩
    intro member
    obtain ⟨⟨v', o'⟩, before, rfl⟩ := mem_map.1 member
    exact absurd ((kept.fine v').waits o' before).2 (by rw [still]; decide)

/-- Releases of other vectors still wait. -/
theorem waiting_erase (member : (v, o) ∈ w.waiting) (o' : Nat) :
    (v, o') ∉ w.waiting.erase (v, o) := by
  intro later
  have once := kept.once
  have perm := perm_cons_erase member
  have nodup := (perm.map Prod.fst).nodup_iff.1 once
  rw [map_cons, nodup_cons] at nodup
  exact nodup.1 (mem_map.2 ⟨(v, o'), later, rfl⟩)

theorem kept_finish (member : (v, o) ∈ w.waiting)
    (done : irqVectorStateFinishRelease (w.vectors v) o = some state) :
    Kept ((w.set v state).conclude v o true) := by
  obtain ⟨owner, quiet, rfl⟩ := finishRelease_spec done
  have old := kept.fine v
  have empty := old.quiet quiet
  refine ⟨?_, kept.once.sublist (erase_sublist.map Prod.fst)⟩
  intro u
  unfold World.conclude
  dsimp only
  by_cases same : u = v
  · subst same
    rw [set_here, update_self, update_self]
    refine ⟨?_, ?_, rfl, ?_, fun _ => rfl, rfl⟩
    · exact quiet.trans (count_eq_zero_of_not_mem (empty 0)).symm
    · intro o' later
      exact absurd later (empty o')
    · intro o' later
      exact absurd later (waiting_erase kept member o')
  · rw [set_other w _ same, update_of_ne same, update_of_ne same]
    exact (kept.fine u).frame (fun _ => rfl) fun _ later => mem_of_mem_erase later

end

/-- A call does nothing, or what its function does at a vector. -/
theorem when_spec {valid : Bool} {result : Option VectorState} {next : VectorState → World}
    {P : World → Prop} (still : P w) (done : ∀ state, result = some state → P (next state)) :
    P (match if valid then result else none with
      | none => w
      | some state => next state) := by
  cases valid with
  | false => exact still
  | true =>
    cases result with
    | none => exact still
    | some state => exact done state rfl

theorem kept_perform {a : Act} (kept : Kept w) (careful : Careful w a) (possible : Possible w a) :
    Kept (perform w a) := by
  cases a with
  | claim v o =>
    refine when_spec kept fun state done => ?_
    obtain ⟨some_, free, rfl⟩ := claim_spec done
    exact kept_take kept free some_ false
  | allocate first last o =>
    unfold perform
    dsimp only
    split
    · exact kept
    rename_i v state done
    split_ifs at done
    obtain ⟨some_, free, rfl⟩ := claim_spec (allocate_spec done)
    exact kept_take kept free some_ false
  | reserve v o =>
    refine when_spec kept fun state done => ?_
    obtain ⟨some_, free, rfl⟩ := reserve_spec done
    exact kept_take kept free some_ true
  | unreserve v o => exact when_spec kept fun state done => kept_unreserve kept done
  | enter v o => exact when_spec kept fun state done => kept_enter kept careful.1 careful.2 done
  | exit v o => exact when_spec kept fun state done => kept_exit kept careful done
  | beginRelease v o => exact when_spec kept fun state done => kept_begin kept careful done
  | finishRelease v o =>
    obtain ⟨owner, releasing⟩ := (kept.fine v).waits o possible
    have done := finishRelease_succeeds owner releasing careful
    unfold perform
    dsimp only
    rw [done]
    exact kept_finish kept possible done

/-- Whether a vector keeps its owner, loses it, or had none. -/
def Owning (w : World) (v : Fin 256) (w' : World) : Prop :=
  (w'.vectors v).owner = (w.vectors v).owner ∨ (w'.vectors v).owner = 0 ∨ (w.vectors v).owner = 0

theorem owning_set (v : Fin 256) (here : state.owner = (w.vectors u).owner ∨ state.owner = 0 ∨
    (w.vectors u).owner = 0) : Owning w v (w.set u state) := by
  unfold Owning
  by_cases same : v = u
  · subst same
    rw [set_here]
    exact here
  · rw [set_other w state same]
    exact Or.inl rfl

theorem owning_perform (w : World) (a : Act) (v : Fin 256) : Owning w v (perform w a) := by
  have still : Owning w v w := Or.inl rfl
  cases a with
  | claim u o =>
    refine when_spec still fun state done => owning_set v ?_
    exact Or.inr (Or.inr (claim_spec done).2.1)
  | allocate first last o =>
    unfold perform
    dsimp only
    split
    · exact still
    · rename_i u state done
      split_ifs at done
      exact owning_set v (Or.inr (Or.inr (claim_spec (allocate_spec done)).2.1))
  | reserve u o =>
    refine when_spec still fun state done => owning_set v ?_
    exact Or.inr (Or.inr (reserve_spec done).2.1)
  | unreserve u o =>
    refine when_spec still fun state done => owning_set v ?_
    obtain ⟨-, -, -, rfl⟩ := unreserve_spec done
    exact Or.inr (Or.inl rfl)
  | enter u o =>
    refine when_spec still fun state done => owning_set v ?_
    obtain ⟨-, -, rfl⟩ := enter_spec done
    exact Or.inl rfl
  | exit u o =>
    refine when_spec still fun state done => owning_set v ?_
    obtain ⟨-, -, rfl⟩ := exit_spec done
    exact Or.inl rfl
  | beginRelease u o =>
    refine when_spec still fun state done => owning_set v ?_
    obtain ⟨-, -, rfl⟩ := beginRelease_spec done
    exact Or.inl rfl
  | finishRelease u o =>
    unfold perform
    dsimp only
    split
    · exact still
    · rename_i state done
      obtain ⟨-, -, rfl⟩ := finishRelease_spec done
      exact owning_set v (Or.inr (Or.inl rfl))

theorem Kept.orderly (kept : Kept w) : Orderly w where
  counted v := (kept.fine v).counted
  owned v o member := ((kept.fine v).owned o member).1
  given a v gives := by
    have free : (w.vectors v).owner = 0 := by
      rcases owning_perform w a v with same | none_ | free
      · exact absurd same gives.1
      · exact absurd none_ gives.2
      · exact free
    exact ⟨free, (kept.fine v).empty free⟩
  closed v o begun := by
    have releasing := (kept.fine v).begun.symm.trans begun
    unfold irqVectorStateEnter
    rw [if_pos (Or.inr (Or.inl releasing))]
  allocated first last o v state done := by
    obtain ⟨-, free, rfl⟩ := claim_spec (allocate_spec done)
    exact ⟨free, rfl⟩
  repeatable v gaveUp := absurd ((kept.fine v).succeeded.symm.trans gaveUp) Bool.false_ne_true

end Steps

/-- In every run of careful calls the vectors are orderly. -/
theorem vectors_stay_orderly {w : World} (run : Reachable vectors Careful w) : Orderly w := by
  have kept : Kept w := by
    refine run.invariant ?_ ?_
    · rintro w rfl
      refine ⟨fun v => ⟨rfl, ?_, rfl, ?_, fun _ => rfl, rfl⟩, List.nodup_nil⟩
      · intro o member
        cases member
      · intro o member
        cases member
    · rintro w a w' kept careful ⟨possible, rfl⟩
      exact kept_perform kept careful possible
  exact kept.orderly

theorem reachable_perform {guard : World → Act → Prop} {w : World} (a : Act)
    (run : Reachable vectors guard w) (allowed : guard w a) (possible : Possible w a) :
    Reachable vectors guard (perform w a) :=
  .step run allowed ⟨possible, rfl⟩

/-- An owner waits to release its vector, with a handler inside. -/
def releasing : World :=
  [.claim ⟨0x42, by decide⟩ 1, .enter ⟨0x42, by decide⟩ 1,
    .beginRelease ⟨0x42, by decide⟩ 1].foldl perform idle

theorem releasing_reachable {guard : World → Act → Prop}
    (careful : ∀ w a, Careful w a → guard w a) : Reachable vectors guard releasing := by
  have claimed := reachable_perform (.claim 0x42 1) (.start rfl) (careful _ _ trivial) trivial
  have inside := reachable_perform (.enter 0x42 1) claimed (careful _ _ ⟨by decide, by decide⟩)
    trivial
  exact reachable_perform (.beginRelease 0x42 1) inside (careful _ _ Nat.one_ne_zero) trivial

/-- The handler leaves, and the vector is released. -/
theorem vectors_stay_orderly_released : ∃ w, Reachable vectors Careful w ∧ Orderly w ∧
    (releasing.vectors 0x42).active = 1 ∧ (w.vectors 0x42).owner = 0 := by
  have run := releasing_reachable fun _ _ careful => careful
  have left := reachable_perform (.exit 0x42 1) run (List.mem_singleton.2 rfl) trivial
  have done := reachable_perform (.finishRelease 0x42 1) left rfl (List.mem_singleton.2 rfl)
  exact ⟨_, done, vectors_stay_orderly done, by decide, by decide⟩

/-- A release gives up with the handler inside, which leaves later. -/
def stuck : World :=
  perform (perform releasing (.finishRelease ⟨0x42, by decide⟩ 1)) (.exit ⟨0x42, by decide⟩ 1)

theorem release_refused_for_good : Reachable vectors (fun _ _ => True) stuck ∧
    stuck.gaveUp 0x42 = true ∧ (stuck.vectors 0x42).active = 0 ∧ (stuck.vectors 0x42).owner = 1 ∧
    irqVectorStateBeginRelease (stuck.vectors 0x42) 1 = none ∧ ¬ Orderly stuck := by
  have gaveUp : stuck.gaveUp 0x42 = true := by decide
  have quiet : (stuck.vectors 0x42).active = 0 := by decide
  refine ⟨?_, gaveUp, quiet, by decide, by decide, ?_⟩
  · have run := @releasing_reachable (fun _ _ => True) fun _ _ _ => trivial
    have failed := reachable_perform (.finishRelease 0x42 1) run trivial (List.mem_singleton.2 rfl)
    exact reachable_perform (.exit 0x42 1) failed trivial trivial
  · intro orderly
    obtain ⟨state, begun, -⟩ := orderly.repeatable 0x42 gaveUp quiet
    cases begun

end IcsOs.Hardware.IrqVectors
