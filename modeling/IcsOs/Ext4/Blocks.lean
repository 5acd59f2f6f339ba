/- GID: IcsOs/Ext4/Blocks
   generality: I
   source: kernel/filesystem/ext4.c, kernel/filesystem/ext4.h
   digest: Allocating and freeing blocks through the group bitmaps, with the free counts. -/

import Mathlib.Algebra.Order.BigOperators.Group.Finset
import IcsOs.Ext4.Super
import IcsOs.Lib.Bitmap
import IcsOs.Lib.Runs

set_option autoImplicit false

namespace IcsOs.Ext4.Blocks

open Finset
open Ext4.Super Lib.Bitmap Lib.Runs

/-- Bitmap blocks and free counts, the superblock's count, the hint, and the disk. -/
structure Volume where
  sb : Sb
  bgBlockBitmap : Nat → Nat
  bgFreeBlocks : Nat → Nat
  freeBlocks : Nat
  allocBlockHint : Nat
  disk : Nat → Bytes

/-- Bits of the group that `ext4_pad_block_bitmap` leaves alone. -/
def padTotal (s : Sb) (g : Nat) : Nat :=
  let last := (s.blocksCount + 2 ^ 64 - g * s.blocksPerGroup) % 2 ^ 64
  if g = s.numGroups - 1 ∧ last < s.blocksPerGroup then last else s.blocksPerGroup

def ext4PadBlockBitmap (s : Sb) (bitmap : Bytes) (g : Nat) : Bytes :=
  fillFrom bitmap (padTotal s g) s.blocksize

/-- `ext4_set_block_used` and `ext4_free_block_raw`; a bitmap block of number zero is left alone. -/
def markBlock (v : Volume) (block : Nat) (mark : Bytes → Nat → Bytes) (group total : Nat → Nat) :
    Volume :=
  let g := block / v.sb.blocksPerGroup
  let bit := block % v.sb.blocksPerGroup
  let bb := v.bgBlockBitmap g
  if bb = 0 then v
  else
    { v with
      disk := Function.update v.disk bb (ext4PadBlockBitmap v.sb (mark (v.disk bb) bit) g)
      bgFreeBlocks := Function.update v.bgFreeBlocks g (group (v.bgFreeBlocks g))
      freeBlocks := total v.freeBlocks }

def ext4SetBlockUsed (v : Volume) (block : Nat) : Volume :=
  markBlock v block setBit (fun n => (n + 2 ^ 16 - 1) % 2 ^ 16) (fun n => n - 1)

/-- `none` stands for what a block larger than 4096 bytes of stack overwrites. -/
def ext4FreeBlockRaw (v : Volume) (block : Nat) : Option Volume :=
  if 4096 < v.sb.blocksize then none
  else some (markBlock v block clearBit (fun n => (n + 1) % 2 ^ 16) (fun n => (n + 1) % 2 ^ 64))

/-- Bits the search looks at; the last group's rest is cut to 32 bits. -/
def searchTotal (s : Sb) (gg : Nat) : Nat :=
  let last := (s.blocksCount + 2 ^ 64 - gg * s.blocksPerGroup % 2 ^ 32) % 2 ^ 32
  if gg = s.numGroups - 1 ∧ last < s.blocksPerGroup then last else s.blocksPerGroup

def hintGroup (v : Volume) : Nat :=
  let g := v.allocBlockHint / v.sb.blocksPerGroup
  if v.sb.numGroups ≤ g then 0 else g

/-- The first clear bit of a group from the start bit on, going round. -/
def searchGroup (v : Volume) (gg : Nat) : Option Nat :=
  let total := searchTotal v.sb gg
  let hintBit := v.allocBlockHint % v.sb.blocksPerGroup
  let start := if gg = hintGroup v ∧ hintBit < total then hintBit else 0
  if v.bgBlockBitmap gg = 0 then none
  else
    ((List.range total).map fun off => (start + off) % total).find? fun bit =>
      !bitAt (v.disk (v.bgBlockBitmap gg)) bit

def searchVolume (v : Volume) : Option (Nat × Nat) :=
  (List.range v.sb.numGroups).findSome? fun g =>
    let gg := (g + hintGroup v) % 2 ^ 32 % v.sb.numGroups
    (searchGroup v gg).map fun bit => (gg, bit)

def noBlock : Nat := 2 ^ 32 - 1

def ext4AllocBlockRaw (v : Volume) : Option (Nat × Volume) :=
  if 4096 < v.sb.blocksize then none
  else
    match searchVolume v with
    | none => some (noBlock, v)
    | some (gg, bit) =>
      let block := (gg * v.sb.blocksPerGroup + bit) % 2 ^ 32
      some (block, { ext4SetBlockUsed v block with allocBlockHint := (block + 1) % 2 ^ 32 })

section

/-- Blocks of a group, by the numbering of the format. -/
def groupSize (s : Sb) (g : Nat) : Nat :=
  min s.blocksPerGroup (s.blocksCount - s.firstDataBlock - g * s.blocksPerGroup)

/-- `block = first_data_block + group * blocks_per_group + bit`. -/
def blockBit (v : Volume) (block : Nat) : Bool :=
  let rel := block - v.sb.firstDataBlock
  bitAt (v.disk (v.bgBlockBitmap (rel / v.sb.blocksPerGroup))) (rel % v.sb.blocksPerGroup)

def clearIn (v : Volume) (g : Nat) : Nat :=
  clearCount (v.disk (v.bgBlockBitmap g)) (groupSize v.sb g)

/-- A padded bitmap block per group, and counts of the clear bits. -/
structure Consistent (v : Volume) : Prop where
  accepted : Accepted v.sb
  fits : v.sb.blocksPerGroup ≤ 8 * v.sb.blocksize
  bitmap : ∀ g < v.sb.numGroups, v.bgBlockBitmap g ≠ 0
  apart : ∀ g < v.sb.numGroups, ∀ h < v.sb.numGroups, v.bgBlockBitmap g = v.bgBlockBitmap h → g = h
  padded : ∀ g < v.sb.numGroups, ∀ c, groupSize v.sb g ≤ c → c < 8 * v.sb.blocksize →
    bitAt (v.disk (v.bgBlockBitmap g)) c = true
  counted : ∀ g < v.sb.numGroups, v.bgFreeBlocks g = clearIn v g
  total : v.freeBlocks = ∑ g ∈ Finset.range v.sb.numGroups, clearIn v g

/-- Blocks counted from zero, 32-bit block numbers, and blocks that fit the stack buffers. -/
structure Covered (s : Sb) : Prop where
  first : s.firstDataBlock = 0
  small : s.blocksCount < 2 ^ 32
  buffer : s.blocksize ≤ 4096

variable {v v' : Volume} {g b c : Nat}

section

variable (consistent : Consistent v)
include consistent

theorem groups_cover (covered : Covered v.sb) :
    (v.sb.numGroups - 1) * v.sb.blocksPerGroup < v.sb.blocksCount ∧
      v.sb.blocksCount ≤ v.sb.numGroups * v.sb.blocksPerGroup := by
  have ok := consistent.accepted
  have some_ := ok.perGroup
  have groups := ok.groups.1
  have count := ok.count
  have small := covered.small
  have fits := consistent.fits
  have buffer := covered.buffer
  have nowrap : (v.sb.blocksCount + v.sb.blocksPerGroup - 1) % 2 ^ 64 =
      v.sb.blocksCount + v.sb.blocksPerGroup - 1 := Nat.mod_eq_of_lt (by omega)
  rw [nowrap] at count
  have split := Nat.div_add_mod (v.sb.blocksCount + v.sb.blocksPerGroup - 1) v.sb.blocksPerGroup
  have rest := Nat.mod_lt (v.sb.blocksCount + v.sb.blocksPerGroup - 1) some_
  generalize (v.sb.blocksCount + v.sb.blocksPerGroup - 1) / v.sb.blocksPerGroup = n at count split
  have few : n < 2 ^ 32 := by
    by_contra many
    have wide : 2 ^ 32 * v.sb.blocksPerGroup ≤ v.sb.blocksPerGroup * n := by
      rw [Nat.mul_comm v.sb.blocksPerGroup]
      exact Nat.mul_le_mul_right _ (by omega)
    omega
  rw [Nat.mod_eq_of_lt few] at count
  rw [count]
  have last : n * v.sb.blocksPerGroup = (n - 1) * v.sb.blocksPerGroup + v.sb.blocksPerGroup := by
    rw [← Nat.succ_mul]
    congr 1
    omega
  rw [Nat.mul_comm] at split
  omega

theorem groupSize_cases (covered : Covered v.sb) (below : g < v.sb.numGroups) :
    0 < groupSize v.sb g ∧ groupSize v.sb g ≤ v.sb.blocksPerGroup ∧
      g * v.sb.blocksPerGroup + groupSize v.sb g ≤ v.sb.blocksCount ∧
      groupSize v.sb g =
        if g = v.sb.numGroups - 1 ∧ v.sb.blocksCount - g * v.sb.blocksPerGroup < v.sb.blocksPerGroup
        then v.sb.blocksCount - g * v.sb.blocksPerGroup else v.sb.blocksPerGroup := by
  obtain ⟨low, high⟩ := groups_cover consistent covered
  have some_ := consistent.accepted.perGroup
  unfold groupSize
  rw [covered.first]
  by_cases last : g = v.sb.numGroups - 1
  · rw [← last] at low
    have same : (g = v.sb.numGroups - 1) = True := eq_true last
    split <;> omega
  have next : (g + 1) * v.sb.blocksPerGroup ≤ (v.sb.numGroups - 1) * v.sb.blocksPerGroup :=
    Nat.mul_le_mul_right _ (by omega)
  rw [Nat.succ_mul] at next
  rw [if_neg fun both => last both.1]
  omega

theorem padTotal_eq (covered : Covered v.sb) (below : g < v.sb.numGroups) :
    padTotal v.sb g = groupSize v.sb g := by
  obtain ⟨some_, -, inside, size⟩ := groupSize_cases consistent covered below
  have small := covered.small
  have rest : (v.sb.blocksCount + 2 ^ 64 - g * v.sb.blocksPerGroup) % 2 ^ 64 =
      v.sb.blocksCount - g * v.sb.blocksPerGroup := by
    rw [show v.sb.blocksCount + 2 ^ 64 - g * v.sb.blocksPerGroup =
      v.sb.blocksCount - g * v.sb.blocksPerGroup + 2 ^ 64 by omega, Nat.add_mod_right]
    exact Nat.mod_eq_of_lt (by omega)
  unfold padTotal
  rw [rest, size]

theorem searchTotal_eq (covered : Covered v.sb) (below : g < v.sb.numGroups) :
    searchTotal v.sb g = groupSize v.sb g := by
  obtain ⟨some_, -, inside, size⟩ := groupSize_cases consistent covered below
  have small := covered.small
  have rest : (v.sb.blocksCount + 2 ^ 64 - g * v.sb.blocksPerGroup % 2 ^ 32) % 2 ^ 32 =
      v.sb.blocksCount - g * v.sb.blocksPerGroup := by
    omega
  unfold searchTotal
  rw [rest, size]

theorem block_place (covered : Covered v.sb) (below : b < v.sb.blocksCount) :
    b / v.sb.blocksPerGroup < v.sb.numGroups ∧
      b % v.sb.blocksPerGroup < groupSize v.sb (b / v.sb.blocksPerGroup) := by
  have some_ := consistent.accepted.perGroup
  obtain ⟨-, high⟩ := groups_cover consistent covered
  have split := Nat.div_add_mod b v.sb.blocksPerGroup
  have rest := Nat.mod_lt b some_
  refine ⟨(Nat.div_lt_iff_lt_mul some_).mpr (by omega), ?_⟩
  unfold groupSize
  rw [covered.first]
  rw [Nat.mul_comm] at split
  omega

theorem groupSize_bits (g : Nat) : groupSize v.sb g ≤ 8 * v.sb.blocksize :=
  (Nat.min_le_left _ _).trans consistent.fits

end

variable {mark : Bytes → Nat → Bytes} {group total : Nat → Nat} {value : Bool}

theorem mark_bits (consistent : Consistent v) (covered : Covered v.sb)
    (below : b < v.sb.blocksCount)
    (marks : ∀ bytes bit c, bitAt (mark bytes bit) c = if c = bit then value else bitAt bytes c)
    {h : Nat} (there : h < v.sb.numGroups) (inside : c < 8 * v.sb.blocksize) :
    bitAt ((markBlock v b mark group total).disk (v.bgBlockBitmap h)) c =
      if h = b / v.sb.blocksPerGroup ∧ c = b % v.sb.blocksPerGroup then value
      else bitAt (v.disk (v.bgBlockBitmap h)) c := by
  obtain ⟨groupLt, bitLt⟩ := block_place consistent covered below
  unfold markBlock
  rw [if_neg (consistent.bitmap _ groupLt)]
  dsimp only
  by_cases same : h = b / v.sb.blocksPerGroup
  · subst same
    rw [Function.update_self]
    unfold ext4PadBlockBitmap
    rw [padTotal_eq consistent covered groupLt,
      bitAt_fillFrom _ (groupSize_bits consistent _), marks]
    by_cases here : c = b % v.sb.blocksPerGroup
    · have low : ¬ groupSize v.sb (b / v.sb.blocksPerGroup) ≤ c := by omega
      simp [here, here ▸ low]
    simp only [here, and_false, if_false]
    by_cases beyond : groupSize v.sb (b / v.sb.blocksPerGroup) ≤ c
    · rw [consistent.padded _ groupLt c beyond inside]
      simp
    · simp [beyond]
  · have apart : v.bgBlockBitmap h ≠ v.bgBlockBitmap (b / v.sb.blocksPerGroup) :=
      fun equal => same (consistent.apart h there _ groupLt equal)
    rw [Function.update_of_ne apart, if_neg fun both => same both.1]

theorem mark_elsewhere (consistent : Consistent v) (covered : Covered v.sb)
    (below : b < v.sb.blocksCount) {k : Nat}
    (other : ∀ g < v.sb.numGroups, k ≠ v.bgBlockBitmap g) :
    (markBlock v b mark group total).disk k = v.disk k := by
  have groupLt := (block_place consistent covered below).1
  unfold markBlock
  rw [if_neg (consistent.bitmap _ groupLt)]
  exact Function.update_of_ne (other _ groupLt) _ _

theorem mark_sb (v : Volume) (b : Nat) (mark : Bytes → Nat → Bytes) (group total : Nat → Nat) :
    (markBlock v b mark group total).sb = v.sb ∧
      (markBlock v b mark group total).bgBlockBitmap = v.bgBlockBitmap := by
  unfold markBlock
  dsimp only
  split <;> exact ⟨rfl, rfl⟩

theorem mark_counts (mark : Bytes → Nat → Bytes) (group total : Nat → Nat)
    (consistent : Consistent v) (covered : Covered v.sb) (below : b < v.sb.blocksCount) :
    (∀ g, (markBlock v b mark group total).bgFreeBlocks g =
      if g = b / v.sb.blocksPerGroup then group (v.bgFreeBlocks g) else v.bgFreeBlocks g) ∧
      (markBlock v b mark group total).freeBlocks = total v.freeBlocks := by
  have groupLt := (block_place consistent covered below).1
  unfold markBlock
  rw [if_neg (consistent.bitmap _ groupLt)]
  refine ⟨fun g => ?_, rfl⟩
  by_cases same : g = b / v.sb.blocksPerGroup
  · subst same
    rw [if_pos rfl]
    exact Function.update_self ..
  · rw [if_neg same]
    exact Function.update_of_ne same _ _

theorem mark_other (consistent : Consistent v) (covered : Covered v.sb)
    (below : b < v.sb.blocksCount)
    (marks : ∀ bytes bit c, bitAt (mark bytes bit) c = if c = bit then value else bitAt bytes c)
    {h : Nat} (there : h < v.sb.numGroups) (apart : h ≠ b / v.sb.blocksPerGroup) :
    clearIn (markBlock v b mark group total) h = clearIn v h := by
  unfold clearIn
  rw [(mark_sb v b mark group total).1, (mark_sb v b mark group total).2]
  apply clearCount_congr
  intro c inside
  rw [mark_bits consistent covered below marks there
    (inside.trans_le (groupSize_bits consistent h)), if_neg fun both => apart both.1]

theorem mark_consistent (consistent : Consistent v) (covered : Covered v.sb)
    (below : b < v.sb.blocksCount)
    (marks : ∀ bytes bit c, bitAt (mark bytes bit) c = if c = bit then value else bitAt bytes c)
    (follows : group (clearIn v (b / v.sb.blocksPerGroup)) =
      clearIn (markBlock v b mark group total) (b / v.sb.blocksPerGroup))
    (sums : total (∑ g ∈ range v.sb.numGroups, clearIn v g) =
      ∑ g ∈ range v.sb.numGroups, clearIn (markBlock v b mark group total) g) :
    Consistent (markBlock v b mark group total) := by
  obtain ⟨groupLt, bitLt⟩ := block_place consistent covered below
  obtain ⟨counts, whole⟩ := mark_counts mark group total consistent covered below
  have sb := (mark_sb v b mark group total).1
  have bitmaps := (mark_sb v b mark group total).2
  refine ⟨?_, ?_, ?_, ?_, ?_, ?_, ?_⟩
  · rw [sb]
    exact consistent.accepted
  · rw [sb]
    exact consistent.fits
  · rw [sb, bitmaps]
    exact consistent.bitmap
  · rw [sb, bitmaps]
    exact consistent.apart
  · rw [sb, bitmaps]
    intro h there c beyond inside
    rw [mark_bits consistent covered below marks there inside, if_neg]
    · exact consistent.padded h there c beyond inside
    · rintro ⟨rfl, rfl⟩
      omega
  · rw [sb]
    intro h there
    rw [counts h]
    by_cases same : h = b / v.sb.blocksPerGroup
    · rw [if_pos same, consistent.counted h there, same, follows]
    · rw [if_neg same, consistent.counted h there,
        mark_other consistent covered below marks there same]
  · rw [sb, whole, consistent.total, sums]

theorem setBit_marks (bytes : Bytes) (bit c : Nat) :
    bitAt (setBit bytes bit) c = if c = bit then true else bitAt bytes c := by
  rw [bitAt_setBit]
  by_cases here : c = bit
  · simp [here]
  · simp [here]

theorem clearBit_marks (bytes : Bytes) (bit c : Nat) :
    bitAt (clearBit bytes bit) c = if c = bit then false else bitAt bytes c := by
  rw [bitAt_clearBit]
  by_cases here : c = bit
  · simp [here]
  · simp [here]

theorem clearIn_le (v : Volume) (g : Nat) : clearIn v g ≤ v.sb.blocksPerGroup :=
  (clearCount_le _ _).trans (Nat.min_le_left _ _)

theorem blockBit_eq (covered : Covered v.sb) (b : Nat) :
    blockBit v b = bitAt (v.disk (v.bgBlockBitmap (b / v.sb.blocksPerGroup)))
      (b % v.sb.blocksPerGroup) := by
  unfold blockBit
  rw [covered.first]
  rfl

theorem consistent_set (consistent : Consistent v) (covered : Covered v.sb)
    (below : b < v.sb.blocksCount) (free : blockBit v b = false) :
    Consistent (ext4SetBlockUsed v b) := by
  obtain ⟨groupLt, bitLt⟩ := block_place consistent covered below
  rw [blockBit_eq covered] at free
  have fewer : clearIn (ext4SetBlockUsed v b) (b / v.sb.blocksPerGroup) + 1 =
      clearIn v (b / v.sb.blocksPerGroup) := by
    unfold clearIn ext4SetBlockUsed
    rw [(mark_sb ..).1, (mark_sb ..).2]
    apply clearCount_take bitLt free
    intro c inside
    rw [mark_bits consistent covered below setBit_marks groupLt
      (inside.trans_le (groupSize_bits consistent _))]
    by_cases here : c = b % v.sb.blocksPerGroup
    · simp [here]
    · simp [here]
  have others : ∀ h ∈ range v.sb.numGroups, h ≠ b / v.sb.blocksPerGroup →
      clearIn (ext4SetBlockUsed v b) h = clearIn v h := fun h there apart =>
    mark_other consistent covered below setBit_marks (mem_range.mp there) apart
  have sums := sum_take (mem_range.mpr groupLt) fewer others
  have limit := clearIn_le v (b / v.sb.blocksPerGroup)
  have fits := consistent.fits
  have buffer := covered.buffer
  refine mark_consistent consistent covered below setBit_marks ?_ ?_
  · change _ = clearIn (ext4SetBlockUsed v b) _
    omega
  · change _ = ∑ g ∈ _, clearIn (ext4SetBlockUsed v b) g
    omega

theorem consistent_free (consistent : Consistent v) (covered : Covered v.sb)
    (below : b < v.sb.blocksCount) (used : blockBit v b = true)
    (freed : ext4FreeBlockRaw v b = some v') : Consistent v' := by
  obtain ⟨groupLt, bitLt⟩ := block_place consistent covered below
  rw [blockBit_eq covered] at used
  unfold ext4FreeBlockRaw at freed
  rw [if_neg (by have := covered.buffer; omega)] at freed
  have same := (Option.some.inj freed).symm
  have more : clearIn v (b / v.sb.blocksPerGroup) + 1 = clearIn v' (b / v.sb.blocksPerGroup) := by
    unfold clearIn
    rw [same, (mark_sb ..).1, (mark_sb ..).2]
    have now : bitAt (v'.disk (v.bgBlockBitmap (b / v.sb.blocksPerGroup)))
        (b % v.sb.blocksPerGroup) = false := by
      rw [same, mark_bits consistent covered below clearBit_marks groupLt
        (bitLt.trans_le (groupSize_bits consistent _)), if_pos ⟨rfl, rfl⟩]
    rw [same] at now
    apply clearCount_take bitLt now
    intro c inside
    rw [mark_bits consistent covered below clearBit_marks groupLt
      (inside.trans_le (groupSize_bits consistent _))]
    by_cases here : c = b % v.sb.blocksPerGroup
    · simp [here, used]
    · simp [here]
  have others : ∀ h ∈ range v.sb.numGroups, h ≠ b / v.sb.blocksPerGroup →
      clearIn v h = clearIn v' h := fun h there apart => by
    rw [same]
    exact (mark_other consistent covered below clearBit_marks (mem_range.mp there)
      apart).symm
  have sums := sum_take (mem_range.mpr groupLt) more others
  have sb : v'.sb = v.sb := by
    rw [same]
    exact (mark_sb ..).1
  have limit := clearIn_le v' (b / v.sb.blocksPerGroup)
  have fits := consistent.fits
  have buffer := covered.buffer
  have small := covered.small
  have sumLe : ∑ g ∈ range v.sb.numGroups, clearIn v' g ≤
      v.sb.numGroups * v.sb.blocksPerGroup := by
    have each := sum_le_card_nsmul (range v.sb.numGroups) (clearIn v')
      v.sb.blocksPerGroup fun g _ => sb ▸ clearIn_le v' g
    simpa using each
  have blocks := groups_cover consistent covered
  have last : v.sb.numGroups * v.sb.blocksPerGroup =
      (v.sb.numGroups - 1) * v.sb.blocksPerGroup + v.sb.blocksPerGroup := by
    have groups := consistent.accepted.groups.1
    rw [← Nat.succ_mul]
    congr 1
    omega
  rw [sb] at limit
  have done : Consistent (markBlock v b clearBit (fun n => (n + 1) % 2 ^ 16)
      (fun n => (n + 1) % 2 ^ 64)) := by
    refine mark_consistent consistent covered below clearBit_marks ?_ ?_
    · rw [← same]
      omega
    · rw [← same]
      omega
  rw [same]
  exact done

end

section Searching

variable {v v' : Volume} {gg bit b : Nat}

theorem search_found (consistent : Consistent v) (covered : Covered v.sb)
    (found : searchVolume v = some (gg, bit)) :
    gg < v.sb.numGroups ∧ bit < groupSize v.sb gg ∧
      bitAt (v.disk (v.bgBlockBitmap gg)) bit = false := by
  obtain ⟨g, -, inGroup⟩ := List.exists_of_findSome?_eq_some found
  rw [Option.map_eq_some_iff] at inGroup
  obtain ⟨bit', search, pair⟩ := inGroup
  obtain ⟨rfl, rfl⟩ := Prod.mk.inj pair
  have below : (g + hintGroup v) % 2 ^ 32 % v.sb.numGroups < v.sb.numGroups :=
    Nat.mod_lt _ consistent.accepted.groups.1
  refine ⟨below, ?_⟩
  unfold searchGroup at search
  rw [searchTotal_eq consistent covered below] at search
  split at search
  · cases search
  have clear := List.find?_some search
  obtain ⟨off, inside, rfl⟩ := List.mem_map.mp (List.mem_of_find?_eq_some search)
  refine ⟨Nat.mod_lt _ (groupSize_cases consistent covered below).1, ?_⟩
  simpa using clear

/-- A block that is handed out was free and lies on the volume. -/
theorem alloc_spec (consistent : Consistent v) (covered : Covered v.sb)
    (made : ext4AllocBlockRaw v = some (b, v')) :
    (b = noBlock ∧ v' = v) ∨ b < v.sb.blocksCount ∧ blockBit v b = false ∧
      v' = { ext4SetBlockUsed v b with allocBlockHint := (b + 1) % 2 ^ 32 } := by
  unfold ext4AllocBlockRaw at made
  rw [if_neg (by have := covered.buffer; omega)] at made
  cases found : searchVolume v with
  | none =>
    rw [found] at made
    cases made
    exact .inl ⟨rfl, rfl⟩
  | some place =>
    obtain ⟨gg, bit⟩ := place
    rw [found] at made
    dsimp only at made
    obtain ⟨below, bitLt, clear⟩ := search_found consistent covered found
    obtain ⟨-, inGroup, onVolume, -⟩ := groupSize_cases consistent covered below
    have small := covered.small
    rw [Nat.mod_eq_of_lt (by omega : gg * v.sb.blocksPerGroup + bit < 2 ^ 32)] at made
    obtain ⟨rfl, rfl⟩ := Prod.mk.inj (Option.some.inj made)
    have some_ := consistent.accepted.perGroup
    have group : (gg * v.sb.blocksPerGroup + bit) / v.sb.blocksPerGroup = gg := by
      rw [Nat.mul_comm, Nat.mul_add_div some_, Nat.div_eq_of_lt (by omega), Nat.add_zero]
    have offset : (gg * v.sb.blocksPerGroup + bit) % v.sb.blocksPerGroup = bit := by
      rw [Nat.mul_comm, Nat.mul_add_mod, Nat.mod_eq_of_lt (by omega)]
    refine .inr ⟨by omega, ?_, rfl⟩
    rw [blockBit_eq covered, group, offset]
    exact clear

end Searching

section Contract

variable {v v' : Volume} {b : Nat}

inductive Act
  | alloc
  | free (block : Nat)

/-- Volumes as they are mounted, and the two operations. -/
def volumes : System Volume Act where
  start v := Consistent v
  step v a v' :=
    match a with
    | .alloc => ∃ b, ext4AllocBlockRaw v = some (b, v')
    | .free b => ext4FreeBlockRaw v b = some v'

/-- What the driver has to be asked for its arithmetic to be right. -/
def Sane (v : Volume) : Act → Prop
  | .alloc => Covered v.sb
  | .free b => Covered v.sb ∧ b < v.sb.blocksCount ∧ blockBit v b = true

theorem consistent_step {a : Act} (consistent : Consistent v) (sane : Sane v a)
    (taken : volumes.step v a v') : Consistent v' := by
  cases a with
  | alloc =>
    obtain ⟨b, made⟩ := taken
    rcases alloc_spec consistent sane made with ⟨-, rfl⟩ | ⟨below, free, rfl⟩
    · exact consistent
    · have set := consistent_set consistent sane below free
      exact { set with }
  | free b => exact consistent_free consistent sane.1 sane.2.1 sane.2.2 taken

/-- The block's bit changes, and nothing else on the disk. -/
def OnlyBit (v v' : Volume) (b : Nat) (value : Bool) : Prop :=
  (∀ g < v.sb.numGroups, ∀ c < 8 * v.sb.blocksize, bitAt (v'.disk (v.bgBlockBitmap g)) c =
      if v.sb.firstDataBlock + g * v.sb.blocksPerGroup + c = b ∧ c < v.sb.blocksPerGroup then value
      else bitAt (v.disk (v.bgBlockBitmap g)) c) ∧
    ∀ k, (∀ g < v.sb.numGroups, k ≠ v.bgBlockBitmap g) → v'.disk k = v.disk k

theorem onlyBit_mark {mark : Bytes → Nat → Bytes} {group total : Nat → Nat} {value : Bool}
    (consistent : Consistent v) (covered : Covered v.sb) (below : b < v.sb.blocksCount)
    (marks : ∀ bytes bit c, bitAt (mark bytes bit) c = if c = bit then value else bitAt bytes c) :
    OnlyBit v (markBlock v b mark group total) b value := by
  refine ⟨fun g there c inside => ?_, fun k other => mark_elsewhere consistent covered below other⟩
  rw [mark_bits consistent covered below marks there inside, covered.first]
  have some_ := consistent.accepted.perGroup
  have split := Nat.div_add_mod b v.sb.blocksPerGroup
  have rest := Nat.mod_lt b some_
  rw [Nat.mul_comm] at split
  refine if_congr ⟨?_, ?_⟩ rfl rfl
  · rintro ⟨rfl, rfl⟩
    omega
  rintro ⟨here, low⟩
  have group : b / v.sb.blocksPerGroup = g := by
    rw [← here, Nat.zero_add, Nat.mul_comm, Nat.mul_add_div some_, Nat.div_eq_of_lt low,
      Nat.add_zero]
  rw [group] at split ⊢
  exact ⟨rfl, by omega⟩

/-- Where the driver's arithmetic covers the run, counts are those of clear bits, a block handed out
was free and on the volume, and each call changes its own bit alone. -/
theorem blocks_accounted (run : Reachable volumes Sane v) :
    Consistent v ∧ (∀ b v', Sane v .alloc → ext4AllocBlockRaw v = some (b, v') → b ≠ noBlock →
        b < v.sb.blocksCount ∧ blockBit v b = false ∧ OnlyBit v v' b true) ∧
      ∀ b v', Sane v (.free b) → ext4FreeBlockRaw v b = some v' → OnlyBit v v' b false := by
  have consistent : Consistent v := by
    apply run.invariant
    · exact fun v mounted => mounted
    · exact fun v a v' kept sane taken => consistent_step kept sane taken
  refine ⟨consistent, fun b v' sane made real => ?_, fun b v' sane freed => ?_⟩
  · rcases alloc_spec consistent sane made with ⟨none_, -⟩ | ⟨below, free, rfl⟩
    · exact absurd none_ real
    · have only : OnlyBit v (ext4SetBlockUsed v b) b true := by
        exact onlyBit_mark consistent sane below setBit_marks
      exact ⟨below, free, only.1, only.2⟩
  · unfold ext4FreeBlockRaw at freed
    rw [if_neg (by have := sane.1.buffer; omega)] at freed
    rw [← Option.some.inj freed]
    exact onlyBit_mark consistent sane.1 sane.2.1 clearBit_marks

/-- All bits set but bit 10. -/
def tenClear : Bytes := fun i => if i = 1 then 0xFB else 0xFF

theorem bitAt_tenClear (c : Nat) : bitAt tenClear c = decide (c ≠ 10) := by
  have small : c % 8 < 8 := Nat.mod_lt _ (by decide)
  unfold bitAt tenClear
  by_cases byte : c / 8 = 1
  · rw [if_pos byte]
    have each : ∀ k < 8, (0xFB : BitVec 8).getLsbD k = decide (k ≠ 2) := by decide
    rw [each _ small]
    exact decide_eq_decide.mpr (by omega)
  · rw [if_neg byte]
    have each : ∀ k < 8, (0xFF : BitVec 8).getLsbD k = true := by decide
    rw [each _ small]
    exact (decide_eq_true (by omega)).symm

/-- 16 blocks of 1024 bytes in one group, with one bit clear. -/
def small (first : Nat) : Volume where
  sb :=
    { blocksize := 1024, inodeSize := 128, inodesPerGroup := 16, blocksPerGroup := 8192,
      firstDataBlock := first, descSize := 32, blocksCount := 16, inodesCount := 16,
      freeBlocks := 1, hasCsum := false, numGroups := 1, gdtBlock := 2, gdtSize := 32 }
  bgBlockBitmap _ := 3
  bgFreeBlocks _ := 1
  freeBlocks := 1
  allocBlockHint := 0
  disk _ := tenClear

theorem small_clear {first : Nat} (low : first ≤ 1) : clearIn (small first) 0 = 1 := by
  obtain rfl | rfl : first = 0 ∨ first = 1 := by omega
  · decide +kernel
  · decide +kernel

theorem small_consistent {first : Nat} (low : first ≤ 1) : Consistent (small first) where
  accepted := ⟨⟨0, Nat.zero_le 6, rfl⟩, by simp [small], by simp [small], by simp [small],
    by simp [small], rfl, by simp [small]⟩
  fits := by simp [small]
  bitmap := by
    intro g _
    change 3 ≠ 0
    decide
  apart := by
    intro g below h below' _
    change g < 1 at below
    change h < 1 at below'
    omega
  padded := by
    intro g below c beyond _
    change g < 1 at below
    obtain rfl : g = 0 := by omega
    change min 8192 (16 - first - 0 * 8192) ≤ c at beyond
    change bitAt tenClear c = true
    rw [bitAt_tenClear]
    exact decide_eq_true (by omega)
  counted := by
    intro g below
    change g < 1 at below
    obtain rfl : g = 0 := by omega
    exact (small_clear low).symm
  total := by
    change 1 = ∑ g ∈ range 1, clearIn (small first) g
    rw [sum_range_one, small_clear low]

/-- The free block of a volume numbered from zero is taken. -/
theorem blocks_accounted_small : ∃ v, Reachable volumes Sane v ∧ Consistent v ∧
    v.freeBlocks = 0 := by
  obtain ⟨v, made, none_⟩ : ∃ v, ext4AllocBlockRaw (small 0) = some (10, v) ∧ v.freeBlocks = 0 :=
    ⟨_, rfl, rfl⟩
  have covered : Sane (small 0) .alloc := ⟨rfl, by decide, by decide⟩
  have run : Reachable volumes Sane v :=
    .step (.start (small_consistent (by decide))) covered ⟨10, made⟩
  exact ⟨v, run, (blocks_accounted run).1, none_⟩

/-- With first data block 1, bit 10 is block 11's; block 10, in use, is handed out. -/
theorem used_block_allocated : Consistent (small 1) ∧
    (∃ v, ext4AllocBlockRaw (small 1) = some (10, v)) ∧ blockBit (small 1) 10 = true :=
  ⟨small_consistent (by decide), ⟨_, rfl⟩, by decide⟩

end Contract

end IcsOs.Ext4.Blocks
