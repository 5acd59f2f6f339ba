/- GID: IcsOs/Ext4/Super
   generality: I
   source: kernel/filesystem/ext4.c, kernel/filesystem/ext4.h
   digest: The superblock as it is read, and what is known of one that is accepted. -/

import Mathlib.Algebra.Group.Nat.Defs
import Mathlib.Data.Nat.Basic

set_option autoImplicit false

namespace IcsOs.Ext4.Super

/-- The 1024 raw bytes of the superblock. -/
abbrev Raw := Nat → BitVec 8

def rd16 (sb : Raw) (o : Nat) : Nat := (sb o).toNat + (sb (o + 1)).toNat * 2 ^ 8

def rd32 (sb : Raw) (o : Nat) : Nat := rd16 sb o + rd16 sb (o + 2) * 2 ^ 16

def ext4SuperMagic : Nat := 0xEF53

/-- What sizes and positions are computed from. -/
structure Sb where
  blocksize : Nat
  inodeSize : Nat
  inodesPerGroup : Nat
  blocksPerGroup : Nat
  firstDataBlock : Nat
  descSize : Nat
  blocksCount : Nat
  inodesCount : Nat
  freeBlocks : Nat
  hasCsum : Bool
  numGroups : Nat
  gdtBlock : Nat
  gdtSize : Nat
  deriving DecidableEq

def has64bit (sb : Raw) : Bool := (rd32 sb 0x60).testBit 7

/-- `1024u << n`; the processor takes the count modulo 32. -/
def blocksizeOf (sb : Raw) : Nat := 1024 * 2 ^ (rd32 sb 0x18 % 32) % 2 ^ 32

def inodeSizeOf (sb : Raw) : Nat :=
  if rd16 sb 0x58 < 128 ∨ 256 < rd16 sb 0x58 then 128 else rd16 sb 0x58

def descSizeOf (sb : Raw) : Nat := if rd16 sb 0xfe = 0 then 32 else rd16 sb 0xfe

def blocksCountOf (sb : Raw) : Nat :=
  rd32 sb 0x04 + if has64bit sb then rd32 sb 0x150 * 2 ^ 32 else 0

def freeBlocksOf (sb : Raw) : Nat :=
  rd32 sb 0x0c + if has64bit sb then rd32 sb 0x158 * 2 ^ 32 else 0

/-- The number of groups, cut to 32 bits. -/
def numGroupsOf (sb : Raw) : Nat :=
  (blocksCountOf sb + rd32 sb 0x20 - 1) % 2 ^ 64 / rd32 sb 0x20 % 2 ^ 32

/-- `ext4_load_super`; `none` is a refusal. -/
def ext4LoadSuper (sb : Raw) : Option Sb :=
  let bs := blocksizeOf sb
  if rd16 sb 0x38 ≠ ext4SuperMagic then none
  else if bs < 1024 ∨ 65536 < bs then none
  else if numGroupsOf sb = 0 then none
  else
    some {
      blocksize := bs
      inodeSize := inodeSizeOf sb
      inodesPerGroup := rd32 sb 0x28
      blocksPerGroup := rd32 sb 0x20
      firstDataBlock := rd32 sb 0x14
      descSize := descSizeOf sb
      blocksCount := blocksCountOf sb
      inodesCount := rd32 sb 0x00
      freeBlocks := freeBlocksOf sb
      hasCsum := (rd32 sb 0x64).testBit 10
      numGroups := numGroupsOf sb
      gdtBlock := (2048 + bs - 1) / bs * bs / bs
      gdtSize := numGroupsOf sb * descSizeOf sb % 2 ^ 32 }

section Accepted

variable {sb : Raw} {s : Sb}

theorem rd16_lt (sb : Raw) (o : Nat) : rd16 sb o < 2 ^ 16 := by
  unfold rd16
  have low := (sb o).isLt
  have high := (sb (o + 1)).isLt
  omega

/-- What holds of every superblock that is accepted. -/
structure Accepted (s : Sb) : Prop where
  blocksize : ∃ k, k ≤ 6 ∧ s.blocksize = 1024 * 2 ^ k
  inodeSize : 128 ≤ s.inodeSize ∧ s.inodeSize ≤ 256
  descSize : 0 < s.descSize ∧ s.descSize < 2 ^ 16
  groups : 0 < s.numGroups ∧ s.numGroups < 2 ^ 32
  perGroup : 0 < s.blocksPerGroup
  table : s.gdtSize = s.numGroups * s.descSize % 2 ^ 32
  count : s.numGroups = (s.blocksCount + s.blocksPerGroup - 1) % 2 ^ 64 / s.blocksPerGroup % 2 ^ 32

theorem shift_cases : ∀ k < 32, ¬ (1024 * 2 ^ k % 2 ^ 32 < 1024 ∨ 65536 < 1024 * 2 ^ k % 2 ^ 32) →
    k ≤ 6 ∧ 1024 * 2 ^ k % 2 ^ 32 = 1024 * 2 ^ k := by
  decide

theorem accepted_of_load (loaded : ext4LoadSuper sb = some s) : Accepted s := by
  unfold ext4LoadSuper at loaded
  dsimp only at loaded
  split_ifs at loaded with magic size groups
  cases loaded
  refine ⟨?_, ?_, ?_, ⟨by dsimp only; omega, Nat.mod_lt _ (by decide)⟩, ?_, rfl, rfl⟩
  · exact ⟨_, shift_cases _ (Nat.mod_lt _ (by decide)) size⟩
  · dsimp only
    unfold inodeSizeOf
    split <;> omega
  · dsimp only
    have bound := rd16_lt sb 0xfe
    unfold descSizeOf
    split <;> omega
  · dsimp only
    by_contra none_
    apply groups
    unfold numGroupsOf
    rw [show rd32 sb 0x20 = 0 by omega, Nat.div_zero, Nat.zero_mod]

end Accepted

end IcsOs.Ext4.Super
