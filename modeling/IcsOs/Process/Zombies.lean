/- GID: IcsOs/Process/Zombies
   generality: I
   source: kernel/process/process.c, kernel/cpu/context.S
   digest: Control blocks of exited processes are freed once, and off every CPU. -/

import Mathlib.Tactic.Abel
import IcsOs.Lib.Holdings
import IcsOs.Lib.Runs

set_option autoImplicit false

namespace IcsOs.Process.Zombies

open Function Multiset
open Lib.Holdings Lib.Runs

abbrev Pcb := Nat

/-- Where `zombie_enqueue` returns to: a slot, or the rest of a list. -/
inductive After
  | slot (i : Nat)
  | walk (zs : List Pcb)

/-- The one run of `zombie_drain`, between two accesses to what it shares. -/
inductive Pc (n : Nat)
  | idle
  | slot (i : Nat)
  | seen (i : Fin n) (z : Pcb)
  | claim (i : Fin n) (z : Pcb)
  | push (z : Pcb) (after : After)
  | link (z : Pcb) (old : Option Pcb) (after : After)
  | steal
  | grab (z : Pcb)
  | walk (zs : List Pcb)

def After.pc {n : Nat} : After → Pc n
  | .slot i => .slot i
  | .walk zs => .walk zs

/-- `zombies` is the list behind `zombie_head`; `leaving`: whose stack a CPU is still on; `exited`
and `freed`: the control blocks not allocated again since; `lost`: those whose slot another took. -/
structure World (n : Nat) where
  current : Fin n → Pcb
  ctxLoadInProgress : Fin n → Bool
  leaving : Fin n → Option Pcb
  pendingZombie : Fin n → Option Pcb
  zombies : List Pcb
  pc : Pc n
  exited : List Pcb
  freed : List Pcb
  lost : List Pcb

variable {n : Nat} (shares : Pcb → Pcb → Bool)

def World.goto (w : World n) (p : Pc n) : World n := { w with pc := p }

/-- `current` is published, and then the slot, with interrupts off. -/
def selfExitCurrent (w : World n) (me : Fin n) (next : Pcb) : World n :=
  { w with
    current := update w.current me next
    ctxLoadInProgress := update w.ctxLoadInProgress me true
    leaving := update w.leaving me (some (w.current me))
    pendingZombie := update w.pendingZombie me (some (w.current me))
    exited := w.current me :: w.exited
    lost := (w.pendingZombie me).toList ++ w.lost }

def zombieStillLive (w : World n) (z : Pcb) : Bool :=
  decide (∃ i, w.current i = z ∨ w.ctxLoadInProgress i = true ∧ w.pendingZombie i = some z)

/-- Some CPU runs a process with the private page directory of `z`, which `shares` tells. -/
def zfreePml4LivenessCheck (w : World n) (z : Pcb) : Bool :=
  decide (∃ i, shares z (w.current i) = true)

def zombieReclaim (w : World n) (z : Pcb) (zs : List Pcb) : World n :=
  if zombieStillLive w z = true ∨ zfreePml4LivenessCheck shares w z = true then
    w.goto (.push z (.walk zs))
  else { w with freed := z :: w.freed }.goto (.walk zs)

/-- One access of the run. -/
def zombieDrain (w : World n) : World n :=
  match w.pc with
  | .idle => w.goto (.slot 0)
  | .slot i =>
    if inside : i < n then
      match w.pendingZombie ⟨i, inside⟩ with
      | none => w.goto (.slot (i + 1))
      | some z => w.goto (.seen ⟨i, inside⟩ z)
    else w.goto .steal
  | .seen i z =>
    if w.ctxLoadInProgress i = true ∨ w.current i = z then w.goto (.slot (i + 1))
    else w.goto (.claim i z)
  | .claim i z =>
    if w.pendingZombie i = some z then
      { w with pendingZombie := update w.pendingZombie i none }.goto (.push z (.slot (i + 1)))
    else w.goto (.slot (i + 1))
  | .push z after => w.goto (.link z w.zombies.head? after)
  | .link z old after =>
    if w.zombies.head? = old then { w with zombies := z :: w.zombies }.goto after.pc
    else w.goto (.push z after)
  | .steal =>
    match w.zombies with
    | [] => w.goto .idle
    | z :: _ => w.goto (.grab z)
  | .grab z =>
    if w.zombies.head? = some z then { w with zombies := [] }.goto (.walk w.zombies)
    else w.goto .steal
  | .walk [] => w.goto .idle
  | .walk (z :: zs) => zombieReclaim shares w z zs

inductive Act (n : Nat)
  | switchto (me : Fin n) (next : Pcb)
  | exit (me : Fin n) (next : Pcb)
  | loaded (me : Fin n)
  | create (z : Pcb)
  | drain

/-- A CPU takes up a process that is not dying and that no CPU runs, outside a context load;
`malloc` may give a freed block to a new process. -/
def step (w : World n) : Act n → Option (World n)
  | .switchto me next =>
    if w.ctxLoadInProgress me = true ∨ next ∈ w.exited ∨ ∃ i, w.current i = next then none
    else some { w with
      current := update w.current me next
      ctxLoadInProgress := update w.ctxLoadInProgress me true }
  | .exit me next =>
    if w.ctxLoadInProgress me = true ∨ next ∈ w.exited ∨ ∃ i, w.current i = next then none
    else some (selfExitCurrent w me next)
  | .loaded me => some { w with
      ctxLoadInProgress := update w.ctxLoadInProgress me false
      leaving := update w.leaving me none }
  | .create z =>
    if z ∈ w.freed then some { w with exited := w.exited.erase z, freed := w.freed.erase z }
    else none
  | .drain => some (zombieDrain shares w)

/-- CPUs that run different processes, of which none has exited yet. -/
def World.Boot (w : World n) : Prop :=
  Injective w.current ∧ w.leaving = (fun _ => none) ∧ w.pendingZombie = (fun _ => none) ∧
    w.zombies = [] ∧ w.pc = .idle ∧ w.exited = [] ∧ w.freed = [] ∧ w.lost = []

def reaping : System (World n) (Act n) where
  start := World.Boot
  step w act w' := step shares w act = some w'

def After.holds : After → Multiset Pcb
  | .slot _ => 0
  | .walk zs => zs

/-- What the run of `zombie_drain` has taken and not put back. -/
def Pc.holds : Pc n → Multiset Pcb
  | .push z after | .link z _ after => z ::ₘ after.holds
  | .walk zs => zs
  | _ => 0

def slotted : Option Pcb → Multiset Pcb
  | none => 0
  | some z => {z}

/-- The exited processes that the run does not have in hand. -/
def placed (w : World n) : Multiset Pcb :=
  ∑ i, slotted (w.pendingZombie i) + w.lost + w.zombies + w.freed

variable {shares} {w w' : World n} {p : Pc n} {z : Pcb}

/-- A process to be taken from its slot has exited, is not freed, and its CPU has left it. -/
def Pc.Ready (w : World n) : Pc n → Prop
  | .seen _ z => z ∈ w.exited ∧ z ∉ w.freed
  | .claim i z => (z ∈ w.exited ∧ z ∉ w.freed) ∧ w.leaving i ≠ some z
  | _ => True

structure Kept (w : World n) : Prop where
  nodup : w.exited.Nodup
  books : (w.exited : Multiset Pcb) = placed w + w.pc.holds
  alive : ∀ i, w.current i ∉ w.exited
  apart : Injective w.current
  leaving : ∀ i z, w.leaving i = some z →
    w.ctxLoadInProgress i = true ∧ w.pendingZombie i = some z
  ready : w.pc.Ready w

theorem Pc.Ready.mono (ready : p.Ready w)
    (more : ∀ z, z ∈ w.exited ∧ z ∉ w.freed → z ∈ w'.exited ∧ z ∉ w'.freed)
    (left : ∀ i, ∀ z ∈ w.exited, w.leaving i ≠ some z → w'.leaving i ≠ some z) : p.Ready w' := by
  cases p with
  | seen i z => exact more z ready
  | claim i z => exact ⟨more z ready.1, left i z ready.1.1 ready.2⟩
  | _ => trivial

theorem slotted_none : slotted none = 0 := rfl

theorem slotted_some (z : Pcb) : slotted (some z) = {z} := rfl

theorem slotted_toList (slot : Option Pcb) : (slot.toList : Multiset Pcb) = slotted slot := by
  cases slot <;> rfl

theorem After.holds_pc (after : After) : (after.pc : Pc n).holds = after.holds := by
  cases after <;> rfl

/-- What the run takes is in its hands, and not from the slot of a CPU that is still leaving it. -/
theorem Kept.drain (kept : Kept w) (slots : Fin n → Option Pcb) (zombies freed : List Pcb)
    (books : ∑ i, slotted (slots i) + (zombies : Multiset Pcb) + freed + p.holds =
      ∑ i, slotted (w.pendingZombie i) + (w.zombies : Multiset Pcb) + w.freed + w.pc.holds)
    (stays : ∀ i z, w.leaving i = some z → slots i = w.pendingZombie i)
    (ready : p.Ready { w with freed := freed }) :
    Kept ({ w with pendingZombie := slots, zombies := zombies, freed := freed }.goto p) := by
  refine ⟨kept.nodup, ?_, kept.alive, kept.apart, ?_, ?_⟩
  · calc (w.exited : Multiset Pcb)
        = w.lost + (∑ i, slotted (w.pendingZombie i) + (w.zombies : Multiset Pcb) + w.freed +
            w.pc.holds) := by
          rw [kept.books, placed]
          abel
      _ = _ := by
          rw [← books]
          dsimp only [World.goto, placed]
          abel
  · intro i z gone
    obtain ⟨load, slot⟩ := kept.leaving i z gone
    exact ⟨load, (stays i z gone).trans slot⟩
  · exact ready.mono (fun _ => id) fun _ _ _ => id

theorem Kept.goto {q : Pc n} (kept : Kept w) (here : w.pc = q) (holds : p.holds = q.holds)
    (ready : p.Ready w) : Kept (w.goto p) :=
  kept.drain w.pendingZombie w.zombies w.freed (by rw [here, holds]) (fun _ _ _ => rfl) ready

theorem mem_slots {i : Fin n} {slots : Fin n → Option Pcb} (slot : slots i = some z) :
    z ∈ ∑ i, slotted (slots i) :=
  mem_sum.mpr ⟨i, Finset.mem_univ i, by simp [slot, slotted]⟩

theorem zombieReclaim_kept (kept : Kept w) {zs : List Pcb} (here : w.pc = .walk (z :: zs)) :
    Kept (zombieReclaim shares w z zs) := by
  unfold zombieReclaim
  split
  · exact kept.goto here rfl trivial
  · refine kept.drain _ w.zombies _ ?_ (fun _ _ _ => rfl) trivial
    simp only [here, Pc.holds, ← cons_coe, ← singleton_add]
    abel

theorem claim_kept (kept : Kept w) {i : Fin n} (here : w.pc = .claim i z)
    (slot : w.pendingZombie i = some z) :
    Kept ({ w with pendingZombie := update w.pendingZombie i none }.goto
      (.push z (.slot (i + 1)))) := by
  refine kept.drain _ w.zombies w.freed ?_ ?_ trivial
  · have slots := sum_update slotted w.pendingZombie i none
    rw [slot, slotted_some, slotted_none, add_zero] at slots
    simp only [here, Pc.holds, After.holds, ← slots, cons_zero]
    abel
  · intro j z' gone
    by_cases own : j = i
    · subst own
      have same := (kept.leaving j z' gone).2
      rw [slot] at same
      cases same
      have left : (Pc.claim j z).Ready w := here ▸ kept.ready
      exact absurd gone left.2
    · exact update_of_ne own _ _

/-- What lies in a slot is not freed. -/
theorem Kept.slot_ready (kept : Kept w) {i : Fin n} (slot : w.pendingZombie i = some z) :
    z ∈ w.exited ∧ z ∉ w.freed := by
  have once : (w.exited : Multiset Pcb).Nodup := kept.nodup
  rw [kept.books, placed, nodup_add, nodup_add] at once
  refine ⟨?_, disjoint_left.mp once.1.2.2 (by simp [mem_slots slot])⟩
  rw [← mem_coe, kept.books]
  simp [placed, mem_slots slot]

theorem zombieDrain_kept (kept : Kept w) : Kept (zombieDrain shares w) := by
  unfold zombieDrain
  cases here : w.pc with
  | idle => exact kept.goto here rfl trivial
  | slot i =>
    have skip : Kept (w.goto (.slot (i + 1))) := kept.goto here rfl trivial
    dsimp only
    split
    case isFalse => exact kept.goto here rfl trivial
    split
    case h_1 => exact skip
    case h_2 z slot =>
      exact kept.goto here rfl (kept.slot_ready slot)
  | seen i z =>
    dsimp only
    split
    case isTrue => exact kept.goto here rfl trivial
    case isFalse free =>
      have exited : (Pc.seen i z).Ready w := here ▸ kept.ready
      exact kept.goto here rfl ⟨exited, fun gone => free (.inl (kept.leaving i z gone).1)⟩
  | claim i z =>
    dsimp only
    split
    case isTrue slot => exact claim_kept kept here slot
    case isFalse => exact kept.goto here rfl trivial
  | push z after => exact kept.goto here rfl trivial
  | link z old after =>
    dsimp only
    split
    case isTrue =>
      refine kept.drain w.pendingZombie _ w.freed ?_ (fun _ _ _ => rfl) ?_
      · rw [After.holds_pc]
        simp only [here, Pc.holds, ← cons_coe, ← singleton_add]
        abel
      · cases after <;> trivial
    case isFalse => exact kept.goto here rfl trivial
  | steal =>
    dsimp only
    split <;> exact kept.goto here rfl trivial
  | grab z =>
    dsimp only
    split
    case isTrue =>
      refine kept.drain w.pendingZombie [] w.freed ?_ (fun _ _ _ => rfl) trivial
      simp only [here, Pc.holds, coe_nil]
      abel
    case isFalse => exact kept.goto here rfl trivial
  | walk zs =>
    cases zs with
    | nil => exact kept.goto here rfl trivial
    | cons z zs => exact zombieReclaim_kept kept here

theorem Kept.fresh (kept : Kept w) (me : Fin n) {next : Pcb} (new : next ∉ w.exited)
    (free : ∀ i, w.current i ≠ next) :
    (∀ i, update w.current me next i ∉ w.exited) ∧ Injective (update w.current me next) := by
  constructor
  · intro i
    by_cases own : i = me
    · rwa [own, update_self]
    · rw [update_of_ne own]
      exact kept.alive i
  · intro i j same
    have apart := @kept.apart i j
    grind [update_self, update_of_ne]

theorem selfExitCurrent_kept (kept : Kept w) {me : Fin n} {next : Pcb} (new : next ∉ w.exited)
    (free : ∀ i, w.current i ≠ next) : Kept (selfExitCurrent w me next) := by
  obtain ⟨alive, apart⟩ := kept.fresh me new free
  have dying := kept.alive me
  refine ⟨List.nodup_cons.mpr ⟨dying, kept.nodup⟩, ?_, ?_, apart, ?_, ?_⟩
  · have slots := sum_update slotted w.pendingZombie me (some (w.current me))
    rw [slotted_some] at slots
    simp only [selfExitCurrent, placed, ← cons_coe, ← coe_add, slotted_toList, kept.books,
      ← singleton_add]
    rw [← add_assoc (∑ i, _), slots]
    abel
  · intro i
    have other := @kept.apart i me
    have gone := alive i
    have taken := free me
    simp only [selfExitCurrent, List.mem_cons] at gone ⊢
    grind [update_self, update_of_ne]
  · intro i z gone
    have before := kept.leaving i z
    simp only [selfExitCurrent] at gone ⊢
    grind [update_self, update_of_ne]
  · refine kept.ready.mono (fun z known => ⟨List.mem_cons_of_mem _ known.1, known.2⟩)
      fun i z member gone => ?_
    simp only [selfExitCurrent]
    grind [update_self, update_of_ne]

theorem create_kept (kept : Kept w) (member : z ∈ w.freed) :
    Kept { w with exited := w.exited.erase z, freed := w.freed.erase z } := by
  refine ⟨kept.nodup.erase z, ?_, fun i old => kept.alive i (List.mem_of_mem_erase old),
    kept.apart, kept.leaving, kept.ready.mono (fun x known => ?_) fun _ _ _ => id⟩
  · simp only [← coe_erase, kept.books, placed]
    rw [erase_add_left_pos _ (by simp [member]), erase_add_right_pos _ (by simp [member])]
  · have other : x ≠ z := fun same => known.2 (same ▸ member)
    exact ⟨(List.mem_erase_of_ne other).mpr known.1, fun old => known.2 (List.mem_of_mem_erase old)⟩

theorem step_kept (kept : Kept w) (act : Act n) (taken : step shares w act = some w') :
    Kept w' := by
  cases act with
  | switchto me next =>
    obtain ⟨guard, taken⟩ := Option.ite_none_left_eq_some.mp taken
    cases taken
    simp only [not_or, not_exists] at guard
    obtain ⟨alive, apart⟩ := kept.fresh me guard.2.1 guard.2.2
    refine ⟨kept.nodup, kept.books, alive, apart, fun i z gone => ?_, kept.ready⟩
    have before := kept.leaving i z gone
    grind [update_self, update_of_ne]
  | exit me next =>
    obtain ⟨guard, taken⟩ := Option.ite_none_left_eq_some.mp taken
    cases taken
    simp only [not_or, not_exists] at guard
    exact selfExitCurrent_kept kept guard.2.1 guard.2.2
  | loaded me =>
    cases taken
    refine ⟨kept.nodup, kept.books, kept.alive, kept.apart, fun i z gone => ?_,
      kept.ready.mono (fun _ => id) fun i z _ gone => ?_⟩
    · have before := kept.leaving i z
      grind [update_self, update_of_ne]
    · grind [update_self, update_of_ne]
  | create z =>
    obtain ⟨member, taken⟩ := Option.ite_none_right_eq_some.mp taken
    cases taken
    exact create_kept kept member
  | drain =>
    cases taken
    exact zombieDrain_kept kept

/-- A control block is freed once before it is allocated again, and off every CPU; one not freed is
in a slot, on the list or in the hands of `zombie_drain`, or its slot was overwritten. -/
theorem zombies_freed_once (run : Reachable (reaping shares) (fun _ _ => True) w) :
    w.exited.Nodup ∧
      (w.exited : Multiset Pcb) =
        ∑ i, slotted (w.pendingZombie i) + w.lost + w.zombies + w.freed + w.pc.holds ∧
      ∀ z ∈ w.freed, ∀ i, w.current i ≠ z ∧ w.leaving i ≠ some z := by
  have kept : Kept w := by
    apply Reachable.invariant _ (fun _ act _ kept _ taken => step_kept kept act taken) run
    rintro s ⟨apart, leaving, pending, zombies, pc, exited, freed, lost⟩
    constructor <;> simp [placed, slotted, Pc.holds, Pc.Ready, *]
  refine ⟨kept.nodup, kept.books, fun z member i => ⟨?_, fun gone => ?_⟩⟩
  · rintro rfl
    apply kept.alive i
    rw [← mem_coe, kept.books]
    simp [placed, member]
  · exact (kept.slot_ready (kept.leaving i z gone).2).2 member

/-- A block that is freed, allocated again and freed again. -/
theorem seven_freed : ∃ w : World 1, w.freed = [7, 2] ∧ ∀ z ∈ w.freed, ∀ i,
    w.current i ≠ z ∧ w.leaving i ≠ some z := by
  have boot : World.Boot (⟨fun _ => 7, fun _ => false, fun _ => none, fun _ => none, [],
      .idle, [], [], []⟩ : World 1) :=
    ⟨injective_of_subsingleton _, rfl, rfl, rfl, rfl, rfl, rfl, rfl⟩
  have start : Reachable (reaping fun _ _ => false) (fun _ _ => True) _ := .start boot
  have run := start.attempt (fun _ _ _ => id)
    (.exit 0 2 :: .loaded 0 :: List.replicate 11 .drain ++ .create 7 :: .exit 0 7 :: .loaded 0 ::
      List.replicate 11 .drain ++ .exit 0 3 :: .loaded 0 :: List.replicate 11 .drain) rfl
  exact ⟨_, rfl, (zombies_freed_once run).2.2⟩

end IcsOs.Process.Zombies
