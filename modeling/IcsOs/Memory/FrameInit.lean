/- GID: IcsOs/Memory/FrameInit
   generality: I
   source: kernel/memory/dexmem.c, kernel/startup/multiboot.h
   digest: Seeding the frame pool from the boot memory map, and the runs of allocator calls on a
     pool so seeded. -/

import IcsOs.Lib.Runs
import IcsOs.Memory.FramePool

set_option autoImplicit false

namespace IcsOs.Memory.FrameInit

open List
open Lib.Intrusive Lib.Runs Memory.FramePool

/-- One record of the boot memory map. -/
structure Mmap where
  size : BitVec 32
  baseAddrLow : BitVec 32
  baseAddrHigh : BitVec 32
  lengthLow : BitVec 32
  lengthHigh : BitVec 32
  type : BitVec 32
  deriving DecidableEq

namespace Mmap

def rawBase (e : Mmap) : Nat := e.baseAddrLow.toNat ||| e.baseAddrHigh.toNat <<< 32

def rawLen (e : Mmap) : Nat := e.lengthLow.toNat ||| e.lengthHigh.toNat <<< 32

/-- First full page of the entry, in `u64` arithmetic. -/
def base (e : Mmap) : Nat :=
  let up := (e.rawBase + 0xFFF) % 2 ^ 64
  up - up % 0x1000

/-- The end of the last full page, in `u64`, cut at 4 GiB. -/
def baseEnd (e : Mmap) : Nat :=
  let last := (e.rawBase + e.rawLen) % 2 ^ 64
  min (last - last % 0x1000) 0x100000000

end Mmap

/-- One page of an entry enters the pool. -/
def seedPage (s : Phys) (page : Nat) : Phys :=
  { pushFrame s page with
    frameTotal := inc64 s.frameTotal
    frameFree := inc64 s.frameFree }

/-- The test of the page loop, with the sum taken in `u64`. -/
@[irreducible] def morePages (page baseEnd : Nat) : Bool :=
  decide ((page + 0x1000) % 2 ^ 64 ≤ baseEnd ∧ page < baseEnd)

variable {baseEnd page : Nat} {s : Phys} {map : Option (List Mmap)}

theorem lt_of_morePages (more : morePages page baseEnd = true) : page < baseEnd := by
  unfold morePages at more
  rw [decide_eq_true_eq] at more
  exact more.2

theorem morePages_iff (low : baseEnd ≤ 0x100000000) :
    morePages page baseEnd = true ↔ page + 0x1000 ≤ baseEnd := by
  unfold morePages
  rw [decide_eq_true_eq]
  omega

/-- The page loop of an entry. -/
def seedPages (s : Phys) (page baseEnd : Nat) : Phys :=
  if more : morePages page baseEnd then
    if memIsReserved page then seedPages s (page + 0x1000) baseEnd
    else seedPages (seedPage s page) (page + 0x1000) baseEnd
  else s
termination_by baseEnd - page
decreasing_by
  all_goals
    have below := lt_of_morePages more
    omega

/-- Records the cursor visits; one of size 0 ends it. -/
def seedEntries (s : Phys) : List Mmap → Phys
  | [] => s
  | e :: rest =>
    if e.size = 0 then s
    else if e.type = 1 then seedEntries (seedPages s e.base e.baseEnd) rest
    else seedEntries s rest

/-- The resets at the top of `frame_init`. -/
def cleared (before : Phys) : Phys :=
  { before with
    frameHead := 0
    frameTotal := 0
    frameFree := 0
    frameReady := false
    frameRefs := fun _ => 0 }

/-- Without a map the pool stays closed; allocation bits are not cleared. -/
def frameInit (before : Phys) (map : Option (List Mmap)) : Phys :=
  match map with
  | none => cleared before
  | some entries => { seedEntries (cleared before) entries with frameReady := true }

/-- Calls on the pool, and stores by a frame's owners. -/
inductive FrameCall
  | alloc
  | retain (phys : Nat)
  | release (phys : Nat)
  | store (f : Frame) (w : Word) (v : BitVec 64)

def FrameCall.perform (s : Phys) : FrameCall → Phys
  | alloc => (frameAlloc s).2
  | retain phys => (frameRetain s phys).2
  | release phys => frameRelease s phys
  | store f w v => s.store f w v

/-- Addresses are page aligned and a store goes to a frame in use. -/
def Proper (s : Phys) : FrameCall → Prop
  | .alloc => True
  | .retain phys => phys % 0x1000 = 0
  | .release phys => phys % 0x1000 = 0
  | .store f _ _ => s.frameRefs f ≠ 0

/-- The pool seeded from a map, under any calls. -/
def framePool (map : Option (List Mmap)) : System Phys FrameCall where
  start s := ∃ before, s = frameInit before map
  step s call t := t = call.perform s

/-- The free list is sound, only free frames are handed out, and unreferenced pages are not
released. -/
structure Sound (s : Phys) : Prop where
  listed : ∃ free : List Frame, Linked s.link 0 s.frameHead (free.map frameAddr) ∧ free.Nodup ∧
    ∀ f ∈ free, s.frameRefs f = 0 ∧ memIsReserved (frameAddr f) = false
  handed : (frameAlloc s).1 ≠ 0 → ∃ f, (frameAlloc s).1 = frameAddr f ∧ s.frameRefs f = 0 ∧
    memIsReserved (frameAddr f) = false
  counted : s.frameFree + (inUse s).card = s.frameTotal
  idle : ∀ phys, phys % 0x1000 = 0 → frameRefcount s phys = 0 → frameRelease s phys = s

theorem sound_of_poolInv {free : List Frame} (inv : PoolInv s free) : Sound s where
  listed := ⟨free, inv.linked, inv.nodup, fun f member => ⟨inv.idle f member, inv.pool f member⟩⟩
  handed := by
    intro handed
    rcases frameAlloc_cases inv with none | ⟨f, rest, rfl, -, got⟩
    · rw [none] at handed
      exact absurd rfl handed
    · rw [got]
      exact ⟨f, rfl, inv.idle f mem_cons_self, inv.pool f mem_cons_self⟩
  counted := inv.total
  idle := fun _ aligned unused => frameRelease_idle aligned unused

theorem poolInv_perform {call : FrameCall} {free : List Frame} (inv : PoolInv s free)
    (proper : Proper s call) : ∃ free', PoolInv (call.perform s) free' := by
  cases call with
  | alloc =>
    show ∃ free', PoolInv (frameAlloc s).2 free'
    rcases frameAlloc_cases inv with none | ⟨f, rest, rfl, ready, got⟩
    · rw [none]
      exact ⟨free, inv⟩
    · rw [got]
      exact ⟨rest, poolInv_taken inv ready⟩
  | retain phys =>
    show ∃ free', PoolInv (frameRetain s phys).2 free'
    rcases frameRetain_cases s phys with no | ⟨-, pass⟩ | ⟨f, rfl, -, used, -, got⟩
    · rw [no]
      exact ⟨free, inv⟩
    · rw [pass]
      exact ⟨free, inv⟩
    · rw [got]
      exact ⟨free, poolInv_recount inv used (by omega)⟩
  | release phys =>
    show ∃ free', PoolInv (frameRelease s phys) free'
    rcases frameRelease_cases s proper with same | ⟨f, rfl, -, many, got⟩ | ⟨f, rfl, -, one, got⟩
    · rw [same]
      exact ⟨free, inv⟩
    · rw [got]
      exact ⟨free, poolInv_recount inv (by omega) (by omega)⟩
    · rw [got]
      exact ⟨f :: free, poolInv_freed inv one⟩
  | store f w v => exact ⟨free, poolInv_store inv proper w v⟩

/-- The pages of an entry the loop pushes, lowest first. -/
def pagesFrom (page baseEnd : Nat) : List Nat :=
  if more : morePages page baseEnd then
    if memIsReserved page then pagesFrom (page + 0x1000) baseEnd
    else page :: pagesFrom (page + 0x1000) baseEnd
  else []
termination_by baseEnd - page
decreasing_by
  all_goals
    have below := lt_of_morePages more
    omega

theorem seedPages_eq (s : Phys) (page baseEnd : Nat) :
    seedPages s page baseEnd = (pagesFrom page baseEnd).foldl seedPage s := by
  induction s, page using seedPages.induct baseEnd with
  | case1 s page more reserved ih =>
    rw [seedPages, dif_pos more, if_pos reserved, pagesFrom, dif_pos more, if_pos reserved, ih]
  | case2 s page more free ih =>
    rw [seedPages, dif_pos more, if_neg free, pagesFrom, dif_pos more, if_neg free, ih,
      foldl_cons]
  | case3 s page done => rw [seedPages, dif_neg done, pagesFrom, dif_neg done, foldl_nil]

theorem mem_pagesFrom {p : Nat} (low : baseEnd ≤ 0x100000000) :
    p ∈ pagesFrom page baseEnd ↔
      page ≤ p ∧ p % 0x1000 = page % 0x1000 ∧ p + 0x1000 ≤ baseEnd ∧ memIsReserved p = false := by
  induction page using pagesFrom.induct baseEnd with
  | case1 page more reserved ih =>
    rw [pagesFrom, dif_pos more, if_pos reserved, ih]
    constructor
    · rintro ⟨above, aligned, within, free⟩
      exact ⟨by omega, by omega, within, free⟩
    rintro ⟨above, aligned, within, free⟩
    have apart : p ≠ page := by
      rintro rfl
      rw [reserved] at free
      exact absurd free (by simp)
    exact ⟨by omega, by omega, within, free⟩
  | case2 page more free ih =>
    rw [pagesFrom, dif_pos more, if_neg free, mem_cons, ih]
    constructor
    · rintro (rfl | ⟨above, aligned, within, unreserved⟩)
      · exact ⟨le_rfl, rfl, (morePages_iff low).mp more, by simpa using free⟩
      · exact ⟨by omega, by omega, within, unreserved⟩
    · rintro ⟨above, aligned, within, unreserved⟩
      by_cases same : p = page
      · exact Or.inl same
      · exact Or.inr ⟨by omega, by omega, within, unreserved⟩
  | case3 page done =>
    rw [pagesFrom, dif_neg done]
    constructor
    · intro member
      exact absurd member not_mem_nil
    · rintro ⟨above, aligned, within, -⟩
      exact absurd ((morePages_iff low).mpr (by omega)) done

theorem pagesFrom_nodup (page baseEnd : Nat) (low : baseEnd ≤ 0x100000000) :
    (pagesFrom page baseEnd).Nodup := by
  induction page using pagesFrom.induct baseEnd with
  | case1 page more reserved ih =>
    rw [pagesFrom, dif_pos more, if_pos reserved]
    exact ih
  | case2 page more free ih =>
    rw [pagesFrom, dif_pos more, if_neg free, nodup_cons]
    refine ⟨?_, ih⟩
    rw [mem_pagesFrom low]
    omega
  | case3 page done =>
    rw [pagesFrom, dif_neg done]
    exact nodup_nil

/-- The usable records the cursor reaches. -/
def usableEntries : List Mmap → List Mmap
  | [] => []
  | e :: rest =>
    if e.size = 0 then []
    else if e.type = 1 then e :: usableEntries rest
    else usableEntries rest

def usable (map : Option (List Mmap)) : List Mmap := usableEntries (map.getD [])

/-- Every page `frame_init` pushes, in order. -/
def seeded (map : Option (List Mmap)) : List Nat :=
  (usable map).flatMap fun e => pagesFrom e.base e.baseEnd

theorem seedEntries_eq (s : Phys) (entries : List Mmap) :
    seedEntries s entries =
      ((usableEntries entries).flatMap fun e => pagesFrom e.base e.baseEnd).foldl seedPage s := by
  induction entries generalizing s with
  | nil => rfl
  | cons e rest ih =>
    unfold seedEntries usableEntries
    split_ifs with last ram
    · rfl
    · rw [ih, seedPages_eq, flatMap_cons, foldl_append]
    · exact ih s

theorem baseEnd_le (e : Mmap) : e.baseEnd ≤ 0x100000000 := min_le_right _ _

theorem base_mod (e : Mmap) : e.base % 0x1000 = 0 := by
  unfold Mmap.base
  dsimp only
  omega

/-- Pages that are pushed are addresses of unreserved frames. -/
theorem seeded_frame (member : page ∈ seeded map) : ∃ f, page = frameAddr f ∧ Pool f := by
  obtain ⟨e, -, inEntry⟩ := mem_flatMap.mp member
  obtain ⟨-, aligned, within, unreserved⟩ := (mem_pagesFrom (baseEnd_le e)).mp inEntry
  have low := baseEnd_le e
  rw [base_mod] at aligned
  have whole : frameAddr (kdirect page) = page := frameAddr_kdirect aligned (by omega)
  refine ⟨kdirect page, whole.symm, ?_⟩
  rw [Pool, whole]
  exact unreserved

theorem seedPage_pushes :
    Pushes Phys.link Phys.frameHead seedPage (fun page => ∃ f, page = frameAddr f ∧ Pool f) 0 where
  front_push _ _ _ := rfl
  points := by
    rintro s _ ⟨f, rfl, pool⟩ head
    have small : s.frameHead < 2 ^ 64 := by
      rcases head with zero | ⟨g, isFrame, -⟩
      · omega
      · have bound := frameAddr_lt g
        omega
    have word : (seedPage s (frameAddr f)).mem f 0 = BitVec.ofNat 64 s.frameHead := by
      simp [seedPage, pushFrame, Phys.store]
    show ((seedPage s (frameAddr f)).mem (kdirect (frameAddr f)) 0).toNat = s.frameHead
    rw [kdirect_frameAddr, word, BitVec.toNat_ofNat, Nat.mod_eq_of_lt small]
  same := by
    rintro s _ _ ⟨f, rfl, -⟩ ⟨g, rfl, -⟩ apart
    have frames : g ≠ f := fun same => apart (congrArg frameAddr same)
    simp [Phys.link, seedPage, pushFrame, Phys.store, frames]
  real := by
    rintro _ ⟨f, rfl, pool⟩
    exact pool.addr_ne_zero

/-- Seeding leaves the counts alone and counts the pushed pages. -/
theorem seedPage_fold (s : Phys) (pages : List Nat) (few : s.frameTotal + pages.length < 2 ^ 64)
    (same : s.frameFree = s.frameTotal) :
    (pages.foldl seedPage s).frameRefs = s.frameRefs ∧
      (pages.foldl seedPage s).frameTotal = s.frameTotal + pages.length ∧
      (pages.foldl seedPage s).frameFree = s.frameTotal + pages.length := by
  induction pages generalizing s with
  | nil => exact ⟨rfl, rfl, same⟩
  | cons page rest ih =>
    have total : (seedPage s page).frameTotal = s.frameTotal + 1 := by
      show inc64 s.frameTotal = s.frameTotal + 1
      rw [length_cons] at few
      unfold inc64
      omega
    have free : (seedPage s page).frameFree = s.frameTotal + 1 := by
      rw [← total]
      show inc64 s.frameFree = inc64 s.frameTotal
      rw [same]
    rw [length_cons] at few
    obtain ⟨refs, totals, frees⟩ := ih (seedPage s page) (by omega) (free.trans total.symm)
    rw [foldl_cons, length_cons]
    refine ⟨refs, ?_, ?_⟩ <;> omega

theorem frameInit_eq (before : Phys) (map : Option (List Mmap)) :
    frameInit before map =
      { (seeded map).foldl seedPage (cleared before) with frameReady := map.isSome } := by
  cases map with
  | none => rfl
  | some entries =>
    show { seedEntries (cleared before) entries with frameReady := true } = _
    rw [seedEntries_eq]
    rfl

/-- The pool starts sound exactly when no page is pushed twice. -/
theorem nodup_seeded_of_sound {before : Phys} (sound : Sound (frameInit before map)) :
    (seeded map).Nodup := by
  obtain ⟨free, linked, nodup, idle⟩ := sound.listed
  rw [frameInit_eq] at linked
  have listed : ∀ page ∈ free.map frameAddr, ∃ f, page = frameAddr f ∧ Pool f := by
    intro page member
    obtain ⟨f, inFree, rfl⟩ := mem_map.mp member
    exact ⟨f, rfl, (idle f inFree).2⟩
  have order : free.map frameAddr = (seeded map).reverse :=
    seedPage_pushes.linked_eq (s := cleared before) rfl (seeded map) (free.map frameAddr)
      (fun _ member => seeded_frame member) listed (nodup.map frameAddr_injective) linked
  rw [← nodup_reverse, ← order]
  exact nodup.map frameAddr_injective

theorem frames_of_seeded (map : Option (List Mmap)) :
    ∃ frames : List Frame, frames.map frameAddr = seeded map ∧ ∀ f ∈ frames, Pool f := by
  refine ⟨(seeded map).map kdirect, ?_, ?_⟩
  · rw [map_map]
    conv_rhs => rw [← map_id (seeded map)]
    apply map_congr_left
    intro page member
    obtain ⟨f, rfl, -⟩ := seeded_frame member
    simp
  · intro f member
    obtain ⟨page, inSeeded, rfl⟩ := mem_map.mp member
    obtain ⟨g, rfl, pool⟩ := seeded_frame inSeeded
    rwa [kdirect_frameAddr]

theorem poolInv_frameInit (before : Phys) (nodup : (seeded map).Nodup) :
    ∃ free, PoolInv (frameInit before map) free := by
  obtain ⟨frames, addresses, pool⟩ := frames_of_seeded map
  have distinct : frames.Nodup := by
    rw [← addresses] at nodup
    exact nodup.of_map
  have few : frames.length ≤ 0x100000 := by
    have bound := distinct.length_le_card
    rwa [Fintype.card_fin] at bound
  have length : (seeded map).length = frames.length := by rw [← addresses, length_map]
  have threaded := seedPage_pushes.linked_of_nodup (s := cleared before) rfl (seeded map)
    (fun _ member => seeded_frame member) nodup
  obtain ⟨refs, total, free⟩ := seedPage_fold (cleared before) (seeded map)
    (by rw [length]; show 0 + frames.length < 2 ^ 64; omega) rfl
  have zero : ∀ f, (frameInit before map).frameRefs f = 0 := by
    intro f
    rw [frameInit_eq]
    exact congrFun refs f
  have none : inUse (frameInit before map) = ∅ := by
    ext f
    rw [mem_inUse, zero]
    simp
  have size : (cleared before).frameTotal + (seeded map).length = frames.length := by
    rw [length]
    exact Nat.zero_add _
  refine ⟨frames.reverse, ?_⟩
  constructor
  · rw [frameInit_eq, map_reverse, addresses]
    exact threaded
  · exact nodup_reverse.mpr distinct
  · intro f _
    exact zero f
  · intro f member
    exact pool f (mem_reverse.mp member)
  · rw [frameInit_eq, length_reverse]
    exact free.trans size
  · rw [none, Finset.card_empty, Nat.add_zero, frameInit_eq]
    exact free.trans total.symm
  all_goals
    intro f used
    exact absurd (zero f) used

/-- The bytes an entry describes. -/
def Mmap.Covers (e : Mmap) (x : Nat) : Prop := e.rawBase ≤ x ∧ x < e.rawBase + e.rawLen

/-- No byte belongs to two usable records. -/
def UsableDisjoint (map : Option (List Mmap)) : Prop :=
  (usable map).Pairwise fun a b => ∀ x, ¬ (a.Covers x ∧ b.Covers x)

/-- So close to the end of the 64-bit space that rounding the start up wraps to 0. -/
def Mmap.BeginsHigh (e : Mmap) : Prop := 2 ^ 64 ≤ e.rawBase + 0xFFF

/-- Below 4 GiB and in the record, where one that begins high begins at 0 and one that ends beyond
64 bits ends where the sum wraps. -/
def Mmap.TakesIn (e : Mmap) (page : Nat) : Prop :=
  page + 0x1000 ≤ 0x100000000 ∧
    (e.BeginsHigh ∧ (e.rawBase + e.rawLen < 2 ^ 64 ∨
      page + 0x1000 + 2 ^ 64 ≤ e.rawBase + e.rawLen) ∨
      ¬ e.BeginsHigh ∧ e.rawBase ≤ page ∧ page + 0x1000 ≤ e.rawBase + e.rawLen ∧
        e.rawBase + e.rawLen < 2 ^ 64)

/-- No unreserved page is taken by a record that begins high and by another. -/
def HighApart (map : Option (List Mmap)) : Prop :=
  (usable map).Pairwise fun a b => a.BeginsHigh ∨ b.BeginsHigh →
    ∀ page, page % 0x1000 = 0 → memIsReserved page = false → ¬ (a.TakesIn page ∧ b.TakesIn page)

theorem halves_lt (low high : BitVec 32) : low.toNat ||| high.toNat <<< 32 < 2 ^ 64 := by
  have lowBound := low.isLt
  have highBound := high.isLt
  apply Nat.or_lt_two_pow
  · omega
  · rw [Nat.shiftLeft_eq]
    omega

theorem rawBase_lt (e : Mmap) : e.rawBase < 2 ^ 64 := halves_lt _ _

theorem rawLen_lt (e : Mmap) : e.rawLen < 2 ^ 64 := halves_lt _ _

theorem mem_window {e : Mmap} :
    page ∈ pagesFrom e.base e.baseEnd ↔
      page % 0x1000 = 0 ∧ memIsReserved page = false ∧ e.TakesIn page := by
  have start := rawBase_lt e
  have length := rawLen_lt e
  rw [mem_pagesFrom (baseEnd_le e), base_mod]
  unfold Mmap.base Mmap.baseEnd Mmap.TakesIn Mmap.BeginsHigh
  dsimp only
  constructor
  · rintro ⟨above, aligned, within, unreserved⟩
    refine ⟨aligned, unreserved, ?_⟩
    omega
  · rintro ⟨aligned, unreserved, takes⟩
    refine ⟨?_, aligned, ?_, unreserved⟩ <;> omega

theorem covers_of_takesIn {e : Mmap} (low : ¬ e.BeginsHigh) (takes : e.TakesIn page) :
    e.Covers page := by
  rcases takes with ⟨-, high | ⟨-, above, within, -⟩⟩
  · exact absurd high.1 low
  · exact ⟨above, by omega⟩

/-- Of disjoint records only one that begins high can share a page. -/
theorem nodup_seeded_iff (disjoint : UsableDisjoint map) : (seeded map).Nodup ↔ HighApart map := by
  have each : ∀ e ∈ usable map, (pagesFrom e.base e.baseEnd).Nodup := fun e _ =>
    pagesFrom_nodup _ _ (baseEnd_le e)
  rw [seeded, nodup_flatMap]
  constructor
  · rintro ⟨-, apart⟩
    apply apart.imp
    intro a b windows _ page aligned unreserved both
    exact windows (mem_window.mpr ⟨aligned, unreserved, both.1⟩)
      (mem_window.mpr ⟨aligned, unreserved, both.2⟩)
  · intro apart
    refine ⟨each, (disjoint.and apart).imp ?_⟩
    rintro a b ⟨bytes, high⟩ page inA inB
    obtain ⟨aligned, unreserved, takesA⟩ := mem_window.mp inA
    obtain ⟨-, -, takesB⟩ := mem_window.mp inB
    by_cases wraps : a.BeginsHigh ∨ b.BeginsHigh
    · exact high wraps page aligned unreserved ⟨takesA, takesB⟩
    · push Not at wraps
      exact bytes page ⟨covers_of_takesIn wraps.1 takesA, covers_of_takesIn wraps.2 takesB⟩

theorem poolInv_of_reachable (nodup : (seeded map).Nodup)
    (run : Reachable (framePool map) Proper s) : ∃ free, PoolInv s free := by
  refine run.invariant (I := fun s => ∃ free, PoolInv s free) ?_ ?_
  · rintro s ⟨before, rfl⟩
    exact poolInv_frameInit before nodup
  · rintro s call t ⟨free, inv⟩ proper rfl
    exact poolInv_perform inv proper

/-- On disjoint usable records, every run keeps the pool sound exactly when no record that begins
high shares an unreserved page with another. -/
theorem frame_pool_sound_iff (map : Option (List Mmap)) (disjoint : UsableDisjoint map) :
    (∀ s, Reachable (framePool map) Proper s → Sound s) ↔ HighApart map := by
  constructor
  · intro sound
    have blank : Phys := ⟨0, 0, 0, false, fun _ => false, fun _ => 0, fun _ _ => 0⟩
    have first : Sound (frameInit blank map) := sound _ (.start ⟨blank, rfl⟩)
    exact (nodup_seeded_iff disjoint).mp (nodup_seeded_of_sound first)
  · intro apart s run
    obtain ⟨free, inv⟩ := poolInv_of_reachable ((nodup_seeded_iff disjoint).mpr apart) run
    exact sound_of_poolInv inv

/-- RAM from 256 MiB to 512 MiB. -/
def ramEntry : Mmap := ⟨20, 0x10000000, 0, 0x10000000, 0, 1⟩

/-- 0x400 bytes, 0x800 bytes before the end of the 64-bit space. -/
def topEntry : Mmap := ⟨20, 0xFFFFF800, 0xFFFFFFFF, 0x400, 0, 1⟩

theorem frame_pool_sound_iff_ram :
    UsableDisjoint (some [ramEntry]) ∧
      ∀ s, Reachable (framePool (some [ramEntry])) Proper s → Sound s := by
  have one : usable (some [ramEntry]) = [ramEntry] := by decide
  have disjoint : UsableDisjoint (some [ramEntry]) := by
    rw [UsableDisjoint, one]
    exact List.pairwise_singleton _ _
  refine ⟨disjoint, (frame_pool_sound_iff _ disjoint).mpr ?_⟩
  rw [HighApart, one]
  exact List.pairwise_singleton _ _

/-- The high record's wrapped start seeds the other's RAM again. -/
theorem frame_pool_seeds_twice :
    UsableDisjoint (some [ramEntry, topEntry]) ∧
      ∀ before, ¬ Sound (frameInit before (some [ramEntry, topEntry])) := by
  have two : usable (some [ramEntry, topEntry]) = [ramEntry, topEntry] := by decide
  have ramBase : ramEntry.rawBase = 0x10000000 := by decide
  have ramLen : ramEntry.rawLen = 0x10000000 := by decide
  have topBase : topEntry.rawBase = 2 ^ 64 - 0x800 := by decide
  have topLen : topEntry.rawLen = 0x400 := by decide
  have disjoint : UsableDisjoint (some [ramEntry, topEntry]) := by
    rw [UsableDisjoint, two, List.pairwise_pair]
    rintro x ⟨inRam, inTop⟩
    simp only [Mmap.Covers, ramBase, ramLen, topBase, topLen] at inRam inTop
    omega
  refine ⟨disjoint, fun before sound => ?_⟩
  have apart := (nodup_seeded_iff disjoint).mp (nodup_seeded_of_sound sound)
  rw [HighApart, two, List.pairwise_pair] at apart
  refine apart (Or.inr ?_) 0x10000000 (by decide) (by rw [memIsReserved]; decide) ⟨?_, ?_⟩
  · rw [Mmap.BeginsHigh, topBase]
    omega
  · simp only [Mmap.TakesIn, Mmap.BeginsHigh, ramBase, ramLen]
    omega
  · simp only [Mmap.TakesIn, Mmap.BeginsHigh, topBase, topLen]
    omega

end IcsOs.Memory.FrameInit
