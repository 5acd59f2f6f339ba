/- GID: IcsOs/Memory/FramePool
   generality: I
   source: kernel/memory/dexmem.c, kernel/memory/memlayout.h
   digest: The in-place free list of physical frames, its reference counts, and what each call
     does to the list. -/

import Mathlib.Algebra.GroupWithZero.Nat
import Mathlib.Data.Fintype.BigOperators
import IcsOs.Lib.Intrusive

set_option autoImplicit false

namespace IcsOs.Memory.FramePool

open Function List
open Lib.Intrusive

/-- A 4 KiB frame of the low 4 GiB, by its number. -/
abbrev Frame := Fin 0x100000

/-- An eight byte word of a frame. -/
abbrev Word := Fin 512

instance instNeZeroWord : NeZero 512 := ⟨by decide⟩

def frameAddr (f : Frame) : Nat := f.val * 0x1000

/-- `KDIRECT` uses the low 32 bits of an address. -/
def kdirect (phys : Nat) : Frame := ⟨phys % 0x100000000 / 0x1000, by omega⟩

/-- Base and end of every range the allocator must never hand out. -/
def memReserved : List (Nat × Nat) :=
  [(0x00000000, 0x00100000),   -- low/firmware
   (0x00100000, 0x00400000),   -- kernel
   (0x00400000, 0x01800000),   -- user-elf
   (0x01800000, 0x02000000),   -- kexec-stage
   (0x02000000, 0x02040000),   -- cpu-irq-stack
   (0x02040000, 0x020C2000),   -- cpu-idle-stack
   (0x020C2000, 0x06000000),   -- kheap
   (0x08000000, 0x10000000),   -- user-windows
   (0x3FD00000, 0x40000000)]   -- user-stack-phys

@[irreducible] def memIsReserved (phys : Nat) : Bool :=
  memReserved.any fun range => decide (range.1 ≤ phys) && decide (phys < range.2)

/-- Physical memory below 4 GiB with the allocator's own variables. -/
structure Phys where
  frameHead : Nat
  frameTotal : Nat
  frameFree : Nat
  frameReady : Bool
  frameAllocmap : Frame → Bool
  frameRefs : Frame → Nat
  mem : Frame → Word → BitVec 64

namespace Phys

def store (s : Phys) (f : Frame) (w : Word) (v : BitVec 64) : Phys :=
  { s with mem := Function.update s.mem f (Function.update (s.mem f) w v) }

/-- The next pointer a free frame keeps in its first word. -/
def link (s : Phys) (phys : Nat) : Nat := (s.mem (kdirect phys) 0).toNat

end Phys

/-- `x--` and `x++` on `u64` counters. -/
def dec64 (x : Nat) : Nat := (x + (2 ^ 64 - 1)) % 2 ^ 64

def inc64 (x : Nat) : Nat := (x + 1) % 2 ^ 64

/-- Pops the head of the free list: its address, or 0. -/
def frameAlloc (s : Phys) : Nat × Phys :=
  if s.frameReady = false then (0, s)
  else if s.frameHead = 0 then (0, s)
  -- a head beyond the tables is reported and left where it is
  else if 0x100000 ≤ s.frameHead / 0x1000 then (0, s)
  else
    let f := kdirect s.frameHead
    (s.frameHead, { s with
        frameHead := s.link s.frameHead
        frameFree := dec64 s.frameFree
        frameAllocmap := Function.update s.frameAllocmap f true
        frameRefs := Function.update s.frameRefs f 1 })

def frameRetain (s : Phys) (phys : Nat) : Bool × Phys :=
  if s.frameReady = false ∨ phys = 0 ∨ phys % 0x1000 ≠ 0 then (false, s)
  -- reserved frames carry no count: retaining one succeeds and does nothing
  else if memIsReserved phys then (true, s)
  else if 0x100000 ≤ phys / 0x1000 then (false, s)
  else
    let f := kdirect phys
    if s.frameAllocmap f = true ∧ s.frameRefs f ≠ 0 ∧ s.frameRefs f ≠ 0xFF then
      (true, { s with frameRefs := Function.update s.frameRefs f (s.frameRefs f + 1) })
    else (false, s)

def frameRefcount (s : Phys) (phys : Nat) : Nat :=
  if s.frameReady = false ∨ phys = 0 ∨ phys % 0x1000 ≠ 0 ∨ 0x100000 ≤ phys / 0x1000 then 0
  else s.frameRefs (kdirect phys)

/-- Points a frame at the old head and makes it the head. -/
def pushFrame (s : Phys) (phys : Nat) : Phys :=
  { s.store (kdirect phys) 0 (BitVec.ofNat 64 s.frameHead) with frameHead := phys }

def frameRelease (s : Phys) (phys : Nat) : Phys :=
  if s.frameReady = false ∨ phys = 0 then s
  else if memIsReserved phys then s
  else if 0x100000 ≤ phys / 0x1000 then s
  else
    let f := kdirect phys
    if s.frameAllocmap f = false ∨ s.frameRefs f = 0 then s
    else
      let dropped :=
        { s with frameRefs := Function.update s.frameRefs f (s.frameRefs f - 1) }
      if s.frameRefs f - 1 ≠ 0 then dropped
      else
        { pushFrame { dropped with
            frameAllocmap := Function.update s.frameAllocmap f false } phys with
          frameFree := inc64 s.frameFree }

theorem frameAddr_lt (f : Frame) : frameAddr f < 0x100000000 := by
  have bound := f.isLt
  unfold frameAddr
  omega

@[simp] theorem frameAddr_mod (f : Frame) : frameAddr f % 0x1000 = 0 := by
  unfold frameAddr
  omega

@[simp] theorem frameAddr_div (f : Frame) : frameAddr f / 0x1000 = f.val := by
  unfold frameAddr
  omega

@[simp] theorem kdirect_frameAddr (f : Frame) : kdirect (frameAddr f) = f := by
  apply Fin.ext
  have bound := frameAddr_lt f
  show frameAddr f % 0x100000000 / 0x1000 = f.val
  rw [Nat.mod_eq_of_lt bound, frameAddr_div]

variable {phys : Nat} {f : Frame} {s : Phys} {free : List Frame}

theorem frameAddr_kdirect (aligned : phys % 0x1000 = 0) (low : phys / 0x1000 < 0x100000) :
    frameAddr (kdirect phys) = phys := by
  show phys % 0x100000000 / 0x1000 * 0x1000 = phys
  omega

theorem frameAddr_injective : Function.Injective frameAddr := by
  intro f g same
  have back := congrArg kdirect same
  rwa [kdirect_frameAddr, kdirect_frameAddr] at back

/-- A frame the allocator may own: outside every reserved range. -/
def Pool (f : Frame) : Prop := memIsReserved (frameAddr f) = false

theorem Pool.addr_ne_zero (pool : Pool f) : frameAddr f ≠ 0 := by
  intro zero
  rw [Pool, zero, memIsReserved] at pool
  exact absurd pool (by decide)

def inUse (s : Phys) : Finset Frame := Finset.univ.filter fun f => s.frameRefs f ≠ 0

theorem mem_inUse : f ∈ inUse s ↔ s.frameRefs f ≠ 0 := by
  simp [inUse]

/-- The free list has the frames; counts and marks agree. -/
structure PoolInv (s : Phys) (free : List Frame) : Prop where
  linked : Linked s.link 0 s.frameHead (free.map frameAddr)
  nodup : free.Nodup
  idle : ∀ f ∈ free, s.frameRefs f = 0
  pool : ∀ f ∈ free, Pool f
  length : s.frameFree = free.length
  total : s.frameFree + (inUse s).card = s.frameTotal
  marked : ∀ f, s.frameRefs f ≠ 0 → s.frameAllocmap f = true
  owned : ∀ f, s.frameRefs f ≠ 0 → Pool f
  ready : ∀ f, s.frameRefs f ≠ 0 → s.frameReady = true

theorem PoolInv.length_lt (inv : PoolInv s free) : free.length ≤ 0x100000 := by
  have bound := inv.nodup.length_le_card
  rwa [Fintype.card_fin] at bound

/-- The head of the free list is handed out. -/
def taken (s : Phys) (f : Frame) : Phys :=
  { s with
    frameHead := s.link (frameAddr f)
    frameFree := dec64 s.frameFree
    frameAllocmap := Function.update s.frameAllocmap f true
    frameRefs := Function.update s.frameRefs f 1 }

theorem frameAlloc_cases (inv : PoolInv s free) :
    frameAlloc s = (0, s) ∨ ∃ f rest, free = f :: rest ∧ s.frameReady = true ∧
        frameAlloc s = (frameAddr f, taken s f) := by
  unfold frameAlloc
  split_ifs with idle empty far
  · exact Or.inl rfl
  · exact Or.inl rfl
  · exact Or.inl rfl
  right
  obtain ⟨tail, listed, -⟩ := inv.linked.pop empty
  cases free with
  | nil => exact absurd listed (by simp)
  | cons f rest =>
    rw [map_cons] at listed
    have head : s.frameHead = frameAddr f := (List.cons.inj listed).1.symm
    refine ⟨f, rest, rfl, by simpa using idle, ?_⟩
    rw [head, kdirect_frameAddr]
    rfl

theorem poolInv_taken {rest : List Frame} (inv : PoolInv s (f :: rest))
    (ready : s.frameReady = true) : PoolInv (taken s f) rest := by
  obtain ⟨fresh, restNodup⟩ := nodup_cons.mp inv.nodup
  have idle : s.frameRefs f = 0 := inv.idle f mem_cons_self
  have pool : Pool f := inv.pool f mem_cons_self
  have bound := inv.length_lt
  have length : s.frameFree = rest.length + 1 := inv.length
  have less : dec64 s.frameFree = rest.length := by
    rw [length_cons] at bound
    unfold dec64
    omega
  have refs : (taken s f).frameRefs = update s.frameRefs f 1 := rfl
  have cases : ∀ g, (taken s f).frameRefs g ≠ 0 → g = f ∨ s.frameRefs g ≠ 0 := by
    intro g used
    by_cases same : g = f
    · exact Or.inl same
    · rw [refs, update_of_ne same] at used
      exact Or.inr used
  constructor
  · exact inv.linked.2.2
  · exact restNodup
  · intro g member
    have apart : g ≠ f := fun same => fresh (same ▸ member)
    rw [refs, update_of_ne apart]
    exact inv.idle g (mem_cons_of_mem _ member)
  · intro g member
    exact inv.pool g (mem_cons_of_mem _ member)
  · exact less
  · have grown : inUse (taken s f) = insert f (inUse s) := by
      ext g
      rw [Finset.mem_insert, mem_inUse, mem_inUse, refs]
      by_cases same : g = f
      · subst same
        simp
      · simp [same]
    have new : f ∉ inUse s := by
      rw [mem_inUse]
      exact not_not_intro idle
    have before := inv.total
    show dec64 s.frameFree + (inUse (taken s f)).card = s.frameTotal
    rw [grown, Finset.card_insert_of_notMem new, less]
    omega
  · intro g used
    show update s.frameAllocmap f true g = true
    rcases cases g used with rfl | used
    · simp
    by_cases same : g = f
    · subst same
      simp
    · rw [update_of_ne same]
      exact inv.marked g used
  · intro g used
    rcases cases g used with rfl | used
    · exact pool
    · exact inv.owned g used
  · intro g _
    exact ready

/-- A used frame's count is changed. -/
def recount (s : Phys) (f : Frame) (n : Nat) : Phys :=
  { s with frameRefs := Function.update s.frameRefs f n }

theorem poolInv_recount {n : Nat} (inv : PoolInv s free) (used : s.frameRefs f ≠ 0)
    (positive : n ≠ 0) : PoolInv (recount s f n) free := by
  have refs : (recount s f n).frameRefs = update s.frameRefs f n := rfl
  have same : ∀ g, (recount s f n).frameRefs g ≠ 0 ↔ s.frameRefs g ≠ 0 := by
    intro g
    rw [refs]
    by_cases eq : g = f
    · subst eq
      simp [used, positive]
    · rw [update_of_ne eq]
  refine { inv with idle := ?_, total := ?_, marked := ?_, owned := ?_, ready := ?_ }
  · intro g member
    by_contra busy
    exact (same g).mp busy (inv.idle g member)
  · have unchanged : inUse (recount s f n) = inUse s := by
      ext g
      rw [mem_inUse, mem_inUse]
      exact same g
    rw [unchanged]
    exact inv.total
  · intro g busy
    exact inv.marked g ((same g).mp busy)
  · intro g busy
    exact inv.owned g ((same g).mp busy)
  · intro g busy
    exact inv.ready g ((same g).mp busy)

theorem frameRetain_cases (s : Phys) (phys : Nat) :
    frameRetain s phys = (false, s) ∨ (memIsReserved phys = true ∧ frameRetain s phys = (true, s)) ∨
      ∃ f, phys = frameAddr f ∧ Pool f ∧ s.frameRefs f ≠ 0 ∧ s.frameRefs f ≠ 0xFF ∧
        frameRetain s phys = (true, recount s f (s.frameRefs f + 1)) := by
  unfold frameRetain
  dsimp only
  split_ifs with refused reserved far counted
  · exact Or.inl rfl
  · exact Or.inr (Or.inl ⟨reserved, rfl⟩)
  · exact Or.inl rfl
  · right
    right
    push Not at refused
    have whole : frameAddr (kdirect phys) = phys := frameAddr_kdirect refused.2.2 (by omega)
    refine ⟨kdirect phys, whole.symm, ?_, counted.2.1, counted.2.2, rfl⟩
    rw [Pool, whole]
    simpa using reserved
  · exact Or.inl rfl

/-- A frame's last reference goes, and it heads the free list. -/
def freed (s : Phys) (f : Frame) : Phys :=
  { pushFrame { s with
      frameRefs := Function.update s.frameRefs f 0
      frameAllocmap := Function.update s.frameAllocmap f false } (frameAddr f) with
    frameFree := inc64 s.frameFree }

theorem frameRelease_cases (s : Phys) (aligned : phys % 0x1000 = 0) :
    frameRelease s phys = s ∨ (∃ f, phys = frameAddr f ∧ Pool f ∧ 1 < s.frameRefs f ∧
        frameRelease s phys = recount s f (s.frameRefs f - 1)) ∨
      ∃ f, phys = frameAddr f ∧ Pool f ∧ s.frameRefs f = 1 ∧ frameRelease s phys = freed s f := by
  unfold frameRelease
  dsimp only
  split_ifs with idle reserved far unused many
  · exact Or.inl rfl
  · exact Or.inl rfl
  · exact Or.inl rfl
  · exact Or.inl rfl
  · right
    left
    have whole : frameAddr (kdirect phys) = phys := frameAddr_kdirect aligned (by omega)
    refine ⟨kdirect phys, whole.symm, ?_, by omega, rfl⟩
    rw [Pool, whole]
    simpa using reserved
  · right
    right
    push Not at unused
    have whole : frameAddr (kdirect phys) = phys := frameAddr_kdirect aligned (by omega)
    have last : s.frameRefs (kdirect phys) = 1 := by omega
    refine ⟨kdirect phys, whole.symm, ?_, last, ?_⟩
    · rw [Pool, whole]
      simpa using reserved
    · rw [freed, whole, last]

theorem frameRelease_idle (aligned : phys % 0x1000 = 0) (idle : frameRefcount s phys = 0) :
    frameRelease s phys = s := by
  rcases frameRelease_cases s aligned with same | ⟨f, rfl, pool, many, -⟩ | ⟨f, rfl, pool, one, -⟩
  · exact same
  all_goals
    have bound := f.isLt
    unfold frameRelease
    unfold frameRefcount at idle
    split_ifs at idle with refused
    · simp only [frameAddr_mod, frameAddr_div, pool.addr_ne_zero, ne_eq, not_true_eq_false,
        false_or] at refused
      rcases refused with notReady | far
      · rw [if_pos (Or.inl notReady)]
      · omega
    · rw [kdirect_frameAddr] at idle
      omega

/-- New words in frames in use leave the pool alone. -/
theorem poolInv_withMem {s : Phys} {free : List Frame} {mem : Frame → Word → BitVec 64}
    (inv : PoolInv s free) (kept : ∀ f, s.frameRefs f = 0 → mem f = s.mem f) :
    PoolInv { s with mem := mem } free where
  __ := inv
  linked := by
    apply inv.linked.congr
    intro phys member
    obtain ⟨g, inFree, rfl⟩ := mem_map.mp member
    show (mem (kdirect (frameAddr g)) 0).toNat = (s.mem (kdirect (frameAddr g)) 0).toNat
    rw [kdirect_frameAddr, kept g (inv.idle g inFree)]

theorem poolInv_store (inv : PoolInv s free) (used : s.frameRefs f ≠ 0) (w : Word) (v : BitVec 64) :
    PoolInv (s.store f w v) free := by
  apply poolInv_withMem inv
  intro g idle
  have apart : g ≠ f := by
    rintro rfl
    exact used idle
  exact update_of_ne apart _ _

/-- The frame address read back from the word a push stores. -/
theorem PoolInv.head_lt (inv : PoolInv s free) : s.frameHead < 2 ^ 64 := by
  have linked := inv.linked
  cases free with
  | nil =>
    have empty : s.frameHead = 0 := linked.null_of_nil
    omega
  | cons f rest =>
    have head : s.frameHead = frameAddr f := linked.1
    have bound := frameAddr_lt f
    omega

theorem poolInv_freed (inv : PoolInv s free) (one : s.frameRefs f = 1) :
    PoolInv (freed s f) (f :: free) := by
  have used : s.frameRefs f ≠ 0 := by omega
  have off : f ∉ free := fun member => used (inv.idle f member)
  have refs : (freed s f).frameRefs = update s.frameRefs f 0 := rfl
  have map : (freed s f).frameAllocmap = update s.frameAllocmap f false := rfl
  have smaller : ∀ g, (freed s f).frameRefs g ≠ 0 → g ≠ f ∧ s.frameRefs g ≠ 0 := by
    intro g busy
    by_cases same : g = f
    · subst same
      exact absurd (by simp [refs]) busy
    · rw [refs, update_of_ne same] at busy
      exact ⟨same, busy⟩
  have nodup : (f :: free).Nodup := nodup_cons.mpr ⟨off, inv.nodup⟩
  have bound : free.length + 1 ≤ 0x100000 := by
    have := nodup.length_le_card
    rwa [Fintype.card_fin] at this
  have more : inc64 s.frameFree = free.length + 1 := by
    rw [inv.length, inc64]
    omega
  have shrunk : inUse s = insert f (inUse (freed s f)) := by
    ext g
    rw [Finset.mem_insert, mem_inUse, mem_inUse, refs]
    by_cases same : g = f
    · subst same
      simp [used]
    · simp [same]
  have gone : f ∉ inUse (freed s f) := by
    rw [mem_inUse, refs]
    simp
  constructor
  · show Linked (freed s f).link 0 (frameAddr f) (frameAddr f :: free.map frameAddr)
    apply inv.linked.push (inv.owned f used).addr_ne_zero
    · show ((freed s f).mem (kdirect (frameAddr f)) 0).toNat = s.frameHead
      have word : (freed s f).mem f 0 = BitVec.ofNat 64 s.frameHead := by
        simp [freed, pushFrame, Phys.store]
      rw [kdirect_frameAddr, word, BitVec.toNat_ofNat, Nat.mod_eq_of_lt inv.head_lt]
    · intro phys member
      obtain ⟨g, inFree, rfl⟩ := mem_map.mp member
      have apart : g ≠ f := fun same => off (same ▸ inFree)
      simp [Phys.link, freed, pushFrame, Phys.store, apart]
  · exact nodup
  · intro g member
    rw [refs]
    rcases mem_cons.mp member with rfl | member
    · simp
    · have apart : g ≠ f := fun same => off (same ▸ member)
      rw [update_of_ne apart]
      exact inv.idle g member
  · intro g member
    rcases mem_cons.mp member with rfl | member
    · exact inv.owned g used
    · exact inv.pool g member
  · exact more
  · have before := inv.total
    have length := inv.length
    rw [shrunk, Finset.card_insert_of_notMem gone] at before
    show inc64 s.frameFree + (inUse (freed s f)).card = s.frameTotal
    omega
  · intro g busy
    obtain ⟨apart, before⟩ := smaller g busy
    rw [map, update_of_ne apart]
    exact inv.marked g before
  · intro g busy
    exact inv.owned g (smaller g busy).2
  · intro g busy
    exact inv.ready g (smaller g busy).2

end IcsOs.Memory.FramePool
