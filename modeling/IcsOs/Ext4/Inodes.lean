/- GID: IcsOs/Ext4/Inodes
   generality: I
   source: kernel/filesystem/ext4.c
   digest: Where inodes are read and written, against their places on the volume. -/

import IcsOs.Ext4.Bounds

set_option autoImplicit false

namespace IcsOs.Ext4.Inodes

open Ext4.Super Ext4.Bounds

variable (s : Sb) (gdt : Nat → Nat) (ino : Nat)

section Model

/-- The bytes of a volume or of a buffer. -/
abbrev Bytes := Nat → BitVec 8

def groupOf : Nat := inodeIndex ino / s.inodesPerGroup

/-- `blk` of `ext4_read_ino` and `ext4_write_ino`; `gdt` gives `bg_inode_table` by group. -/
def blk : Nat := ext4InodeBlock s (gdt (groupOf s ino)) ino

/-- `buf` with the inode's block; behind it is what the stack had. -/
def blockOf (vol stack : Bytes) : Bytes := fun j =>
  if j < s.blocksize then vol (blk s gdt ino / s.blocksize * s.blocksize + j) else stack j

def ext4ReadIno (vol stack : Bytes) : Bytes := fun i =>
  blockOf s gdt ino vol stack (blk s gdt ino % s.blocksize + i)

/-- The volume after the write. -/
def ext4WriteIno (raw vol stack : Bytes) : Bytes := fun a =>
  let start := blk s gdt ino / s.blocksize * s.blocksize
  let off := blk s gdt ino % s.blocksize
  if start ≤ a ∧ a < start + s.blocksize then
    if start + off ≤ a ∧ a < start + off + s.inodeSize then raw (a - (start + off))
    else blockOf s gdt ino vol stack (a - start)
  else vol a

end Model

section Contract

/-- The inode's place on the volume. -/
def place : Nat :=
  gdt (groupOf s ino) * s.blocksize + inodeIndex ino % s.inodesPerGroup * s.inodeSize

def Valid : Prop := 1 ≤ ino ∧ ino ≤ s.inodesCount ∧ ino < 2 ^ 32

/-- The inode is read and written at its place, and nothing else is. -/
structure Exact : Prop where
  fine : Fine (events s (.readIno (gdt (groupOf s ino)) ino))
  read : ∀ vol stack i, i < s.inodeSize →
    ext4ReadIno s gdt ino vol stack i = vol (place s gdt ino + i)
  write : ∀ raw vol stack a, ext4WriteIno s gdt ino raw vol stack a =
    if place s gdt ino ≤ a ∧ a < place s gdt ino + s.inodeSize then raw (a - place s gdt ino)
    else vol a

def Apart (ino' : Nat) : Prop := place s gdt ino + s.inodeSize ≤ place s gdt ino' ∨
  place s gdt ino' + s.inodeSize ≤ place s gdt ino

structure Sound : Prop where
  exact_ : ∀ ino, Valid s ino → Exact s gdt ino
  apart : ∀ ino ino', Valid s ino → Valid s ino' → ino ≠ ino' → Apart s gdt ino ino'
  others : ∀ ino ino', Valid s ino → Valid s ino' → ino ≠ ino' → ∀ raw vol stack stack' i,
    i < s.inodeSize → ext4ReadIno s gdt ino' (ext4WriteIno s gdt ino raw vol stack) stack' i =
      ext4ReadIno s gdt ino' vol stack' i

/-- The inode lies below 4 GiB, in one block the buffers hold. -/
def Reached : Prop := Fits s (.readIno (gdt (groupOf s ino)) ino) ∧ place s gdt ino < 2 ^ 32 ∧
  place s gdt ino % s.blocksize + s.inodeSize ≤ s.blocksize

end Contract

variable {s gdt ino}

theorem ext4ReadIno_eq {vol stack : Bytes} {i : Nat}
    (inside : blk s gdt ino % s.blocksize + i < s.blocksize) :
    ext4ReadIno s gdt ino vol stack i = vol (blk s gdt ino + i) := by
  unfold ext4ReadIno blockOf
  rw [if_pos inside, ← Nat.add_assoc, Nat.div_add_mod']

theorem eq_of_volumes {x y : Nat} (alike : ∀ vol : Bytes, vol x = vol y) : x = y := by
  by_contra differ
  have there := alike fun a => if a = y then 1 else 0
  rw [if_neg differ, if_pos rfl] at there
  exact absurd there (by decide)

theorem Exact.low {i : Nat} (exact_ : Exact s gdt ino) (within : i < s.inodeSize)
    (inside : blk s gdt ino % s.blocksize + i < s.blocksize) : place s gdt ino < 2 ^ 32 := by
  have same : blk s gdt ino + i = place s gdt ino + i := eq_of_volumes fun vol =>
    (ext4ReadIno_eq inside).symm.trans (exact_.read vol (fun _ => 0) i within)
  rw [← Nat.add_right_cancel same]
  exact Nat.mod_lt _ (Nat.two_pow_pos 32)

theorem exact_iff (ok : Accepted s) : Exact s gdt ino ↔ Reached s gdt ino := by
  have size := ok.inodeSize
  have cut : blk s gdt ino = place s gdt ino % 2 ^ 32 := rfl
  have offset : blk s gdt ino % s.blocksize = place s gdt ino % s.blocksize := by
    obtain ⟨-, -, -, whole⟩ := blocksize_facts ok
    rw [cut, Nat.mod_mod_of_dvd _ (Nat.dvd_of_mod_eq_zero whole)]
  obtain ⟨-, low, -, -⟩ := blocksize_facts ok
  have split := Nat.div_add_mod' (blk s gdt ino) s.blocksize
  have below := Nat.mod_lt (blk s gdt ino) (show 0 < s.blocksize by omega)
  constructor
  · intro exact_
    refine ⟨(readIno_fine ok _ _).mp exact_.fine, ?_, ?_⟩
    · exact exact_.low (i := 0) (by omega) (by rwa [Nat.add_zero])
    · by_contra crosses
      have beyond := exact_.read (fun _ => 0) (fun _ => 1)
        (s.blocksize - blk s gdt ino % s.blocksize) (by omega)
      simp only [ext4ReadIno, blockOf] at beyond
      rw [if_neg (by omega)] at beyond
      exact absurd beyond (by decide)
  · rintro ⟨fits, small, inside⟩
    rw [Nat.mod_eq_of_lt small] at cut
    rw [← offset] at inside
    refine ⟨(readIno_fine ok _ _).mpr fits, ?_, ?_⟩
    · intro vol stack i within
      rw [ext4ReadIno_eq (by omega), cut]
    · intro raw vol stack a
      simp only [ext4WriteIno, blockOf, split]
      rw [← cut]
      generalize blk s gdt ino / s.blocksize * s.blocksize = start at split ⊢
      by_cases block : start ≤ a ∧ a < start + s.blocksize
      · have inner : (if a - start < s.blocksize then vol (start + (a - start))
            else stack (a - start)) = vol a := by
          rw [if_pos (by omega), Nat.add_sub_cancel' block.1]
        rw [if_pos block, inner]
      · rw [if_neg block, if_neg (by omega)]

/-- Inodes of one group follow each other. -/
theorem apart_of_group {ino' : Nat} (one : Valid s ino) (other : Valid s ino')
    (distinct : ino ≠ ino') (same : groupOf s ino = groupOf s ino') : Apart s gdt ino ino' := by
  have index {i : Nat} (valid : Valid s i) : inodeIndex i + 1 = i := by
    unfold inodeIndex Valid at *
    omega
  have left := Nat.div_add_mod (inodeIndex ino) s.inodesPerGroup
  have right := Nat.div_add_mod (inodeIndex ino') s.inodesPerGroup
  have first := index one
  have second := index other
  unfold Apart place
  unfold groupOf at same ⊢
  rw [same] at left ⊢
  generalize inodeIndex ino % s.inodesPerGroup = i at *
  generalize inodeIndex ino' % s.inodesPerGroup = j at *
  rcases Nat.lt_or_ge i j with before | after
  · have step := Nat.mul_le_mul_right s.inodeSize before
    rw [Nat.succ_mul] at step
    omega
  · have step := Nat.mul_le_mul_right s.inodeSize (show j + 1 ≤ i by omega)
    rw [Nat.succ_mul] at step
    omega

/-- Inodes are accessed at their places, apart from each other, exactly where each one lies below 4
GiB and in one block and the tables of the groups are apart. -/
theorem inodes_sound_iff {s : Sb} (ok : Accepted s) (gdt : Nat → Nat) :
    Sound s gdt ↔ (∀ ino, Valid s ino → Reached s gdt ino) ∧
      ∀ ino ino', Valid s ino → Valid s ino' → groupOf s ino ≠ groupOf s ino' →
        Apart s gdt ino ino' := by
  constructor
  · intro sound
    refine ⟨fun ino valid => (exact_iff ok).mp (sound.exact_ ino valid), ?_⟩
    intro ino ino' one other groups
    exact sound.apart ino ino' one other fun same => groups (congrArg _ same)
  · rintro ⟨reached, tables⟩
    have exact_ ino (valid : Valid s ino) := (exact_iff ok).mpr (reached ino valid)
    have apart : ∀ ino ino', Valid s ino → Valid s ino' → ino ≠ ino' → Apart s gdt ino ino' := by
      intro ino ino' one other distinct
      by_cases same : groupOf s ino = groupOf s ino'
      · exact apart_of_group one other distinct same
      · exact tables ino ino' one other same
    refine ⟨exact_, apart, ?_⟩
    intro ino ino' one other distinct raw vol stack stack' i within
    have far := apart ino ino' one other distinct
    unfold Apart at far
    rw [(exact_ ino' other).read _ _ i within, (exact_ ino' other).read _ _ i within,
      (exact_ ino one).write, if_neg (by omega)]

/-- 8 GiB in 1024 groups. -/
def large : Sb := { oneGroup with
  blocksCount := 2 ^ 23, inodesCount := 2 ^ 14, numGroups := 1024, gdtSize := 2 ^ 15 }

theorem large_accepted : Accepted large :=
  ⟨⟨0, by decide⟩, by decide, by decide, by decide, by decide, by decide, by decide⟩

/-- With one inode table after the other. -/
theorem inodes_sound_large : Sound large fun g => 5 + 2 * g := by
  refine (inodes_sound_iff large_accepted _).mpr ⟨?_, ?_⟩
  · rintro ino ⟨least, most, -⟩
    simp only [Reached, Fits, place, groupOf, inodeIndex, large, oneGroup, mallocSize,
      sizeofGd] at *
    omega
  · rintro ino ino' ⟨least, most, -⟩ ⟨least', most', -⟩ other
    simp only [Apart, place, groupOf, inodeIndex, large, oneGroup] at *
    omega

/-- With the table at 4 GiB, another byte is read. -/
theorem high_table_misread : Accepted large ∧ Valid large 2 ∧ ∃ vol,
    ext4ReadIno large (fun _ => 2 ^ 22) 2 vol (fun _ => 0) 0 ≠
      vol (place large (fun _ => 2 ^ 22) 2) :=
  ⟨large_accepted, by unfold Valid; decide, fun a => if a < 2 ^ 32 then 1 else 0, by decide⟩

end IcsOs.Ext4.Inodes
